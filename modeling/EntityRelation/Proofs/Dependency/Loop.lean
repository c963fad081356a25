import EntityRelation.Proofs.Dependency.Respect
import Mathlib.Data.List.Perm.Basic

/-!
# A sort comes to an end

A sort is watched round by round. `Sorting` is how far it has come, `Sorting.round?` is the next
round, if there is one, and `Sorting.after` counts the rounds. **`Graph.sort_comes_to_an_end`**: for
every graph that a history of changes leaves and every list of entities, the rounds come to an end
with nothing waiting, after no more of them than there are entities and edges; the answer of the
sort is what has been placed and given up by then; and whenever no waiting entity is a root, exactly
one edge is given up, and it joins two waiting entities.

Every round takes away from the waiting entities or from the edges (`exists_rounds`). That a removal
takes away one edge and no more rests on what is true of every history: no two edges join the same
entities in the same direction (`nodup_ends_ofHistory`).
-/

namespace EntityRelation.Dependency

namespace Graph

/-! ### One edge for two entities -/

/-- A removal is one more change. -/
theorem remove_ofHistory (history : List Change) (p c : Nat) :
    (ofHistory history).remove p c = ofHistory (history ++ [.remove p c]) := by
  rw [ofHistory, ofHistory, List.foldl_append]
  rfl

/-- An edge that is there is in the list. -/
theorem mem_edges_of_strength? {g : Graph} {e : Edge}
    (h : g.strength? e.parent e.child = some e.strength) : e ∈ g.edges := by
  obtain ⟨x, hx, hs⟩ := Option.map_eq_some_iff.1 h
  have hj : x.joins e.parent e.child = true := by simpa using List.find?_some hx
  obtain ⟨hp, hc⟩ := joins_edge_iff.1 hj
  obtain rfl : x = e := by
    cases x
    cases e
    simp_all
  exact List.mem_of_find?_eq_some hx

/-- If an edge joins two entities, the graph does. -/
theorem joins_of_mem_edges {g : Graph} {e : Edge} (h : e ∈ g.edges) :
    g.joins e.parent e.child = true := by
  rw [joins, strength?, Option.isSome_map, List.find?_isSome]
  exact ⟨e, h, joins_edge_iff.2 ⟨rfl, rfl⟩⟩

/-- No history leads to two edges between the same entities. -/
theorem nodup_ends_ofHistory (history : List Change) :
    ((ofHistory history).edges.map Edge.ends).Nodup := by
  refine ofHistory_induction (P := fun g => (g.edges.map Edge.ends).Nodup) .nil (fun g x hg => ?_)
    history
  cases x with
  | remove p c => exact (List.filter_sublist.map _).nodup hg
  | add p c s =>
    rw [change, add]
    split
    case isTrue => exact hg
    case isFalse hpc =>
      dsimp only
      split
      case isTrue =>
        have h : Edge.ends ∘ (fun e : Edge =>
            if e.joins p c then { e with strength := e.strength.max s } else e) = Edge.ends := by
          funext e
          rw [Function.comp_apply]
          split <;> rfl
        rwa [List.map_map, h]
      case isFalse hj =>
        rw [List.map_append, List.map_singleton]
        refine List.nodup_append.2 ⟨hg, List.nodup_singleton _, ?_⟩
        rintro a ha b hb rfl
        obtain ⟨e, he, hee⟩ := List.mem_map.1 ha
        obtain ⟨rfl, rfl⟩ : e.parent = p ∧ e.child = c :=
          Prod.mk.inj (hee.trans (List.mem_singleton.1 hb))
        exact hj (joins_of_mem_edges he)

/-- Where no two edges join the same entities, a removal takes away one edge. -/
theorem edges_perm_cons_remove {g : Graph} (hn : (g.edges.map Edge.ends).Nodup) {e : Edge}
    (h : g.strength? e.parent e.child = some e.strength) :
    g.edges.Perm (e :: (g.remove e.parent e.child).edges) := by
  have he := mem_edges_of_strength? h
  have hone : g.edges.filter (·.joins e.parent e.child) = [e] := by
    refine filter_eq_singleton hn.of_map he fun x hx => ?_
    rw [joins_edge_iff]
    constructor
    · exact fun ⟨hp, hc⟩ => List.inj_on_of_nodup_map hn hx he (Prod.ext hp hc)
    · rintro rfl
      exact ⟨rfl, rfl⟩
  have hperm := List.filter_append_perm (·.joins e.parent e.child) g.edges
  rw [hone] at hperm
  exact hperm.symm

end Graph

/-! ### Round by round -/

/-- How far a sort has come. -/
structure Sorting where
  /-- The edges that have not been given up. -/
  graph : Graph
  /-- The entities that have not been placed. -/
  waiting : List Nat
  /-- What has been placed and given up. -/
  order : Order
  deriving DecidableEq, Repr

namespace Sorting

/-- Everything waits. -/
def start (g : Graph) (entities : List Nat) : Sorting := ⟨g, entities, ⟨[], []⟩⟩

/-- The waiting entities that can be placed. -/
def roots (s : Sorting) : List Nat := s.graph.roots s.waiting

/-- The roots are placed. -/
def place (s : Sorting) : Sorting where
  graph := s.graph
  waiting := Graph.others s.waiting s.roots
  order := { s.order with placed := s.order.placed ++ s.roots }

/-- An edge is given up. -/
def giveUp (s : Sorting) (e : Edge) : Sorting where
  graph := s.graph.remove e.parent e.child
  waiting := s.waiting
  order := { s.order with broken := s.order.broken ++ [e] }

/-- The next round, unless nothing waits or there is no edge to give up. -/
def round? (s : Sorting) : Option Sorting :=
  if s.waiting = [] then none
  else if s.roots = [] then (s.graph.edgeToBreak? s.waiting).map s.giveUp
  else some s.place

/-- What a number of rounds lead to, if there are so many. -/
def after : Nat → Sorting → Option Sorting
  | 0, s => some s
  | n + 1, s => s.round?.bind (after n)

variable {s t : Sorting} {e : Edge}

theorem round?_of_done (h : s.waiting = []) : s.round? = none := if_pos h

theorem round?_of_roots (h : s.roots ≠ []) : s.round? = some s.place := by
  have hw : s.waiting ≠ [] := fun hw => h (by rw [roots, hw]; rfl)
  rw [round?, if_neg hw, if_neg h]

theorem round?_of_stall (hw : s.waiting ≠ []) (hr : s.roots = [])
    (he : s.graph.edgeToBreak? s.waiting = some e) : s.round? = some (s.giveUp e) := by
  rw [round?, if_neg hw, if_pos hr, he, Option.map_some]

/-- A round places the roots or gives up an edge. -/
theorem round?_cases (h : s.round? = some t) :
    (s.roots ≠ [] ∧ t = s.place) ∨
      (s.waiting ≠ [] ∧ s.roots = [] ∧ ∃ e, s.graph.edgeToBreak? s.waiting = some e ∧
        t = s.giveUp e) := by
  rw [round?] at h
  split at h
  case isTrue => cases h
  case isFalse hw =>
    split at h
    case isTrue hr =>
      obtain ⟨e, he, rfl⟩ := Option.map_eq_some_iff.1 h
      exact .inr ⟨hw, hr, e, he, rfl⟩
    case isFalse hr => exact .inl ⟨hr, (Option.some.inj h).symm⟩

theorem after_add (m n : Nat) (s : Sorting) : after (m + n) s = (after m s).bind (after n) := by
  induction m generalizing s with
  | zero => rw [Nat.zero_add]; rfl
  | succ m ih =>
    rw [Nat.succ_add, after, after, Option.bind_assoc]
    exact congrArg _ (funext ih)

/-- Once nothing waits there are no more rounds. -/
theorem le_of_after {n m : Nat} {u : Sorting} (h : after n s = some t) (ht : t.waiting = [])
    (hu : after m s = some u) : m ≤ n := by
  by_contra hlt
  obtain ⟨k, rfl⟩ : ∃ k, m = n + (k + 1) := ⟨m - n - 1, by omega⟩
  rw [after_add, h, Option.bind_some, after, round?_of_done ht] at hu
  cases hu

/-- All graphs of a sort are left by histories if the first one is. -/
theorem exists_history_of_after {n : Nat} (h : after n s = some t) {history : List Change}
    (hs : s.graph = .ofHistory history) : ∃ history, t.graph = .ofHistory history := by
  induction n generalizing s history with
  | zero =>
    cases h
    exact ⟨history, hs⟩
  | succ n ih =>
    obtain ⟨u, hu, h⟩ := Option.bind_eq_some_iff.1 h
    rcases round?_cases hu with ⟨-, rfl⟩ | ⟨-, -, e, -, rfl⟩
    · exact ih h hs
    · refine @ih (s.giveUp e) h (history ++ [.remove e.parent e.child]) ?_
      rw [← Graph.remove_ofHistory, ← hs]
      rfl

/-- The rounds of a graph, after others. -/
theorem after_of_rounds {n : Nat} {g : Graph} {waiting : List Nat} {o : Order}
    (h : g.Rounds n waiting o) (before : Order) : ∃ g', after n ⟨g, waiting, before⟩ =
      some ⟨g', [], before.placed ++ o.placed, before.broken ++ o.broken⟩ := by
  induction h generalizing before with
  | @done g => exact ⟨g, by simp [after]⟩
  | @place n g waiting o hr _ ih =>
    obtain ⟨g', h⟩ := ih ⟨before.placed ++ g.roots waiting, before.broken⟩
    refine ⟨g', ?_⟩
    rw [after, round?_of_roots (s := ⟨g, waiting, before⟩) hr, Option.bind_some, ← List.append_assoc]
    exact h
  | @giveUp n g waiting e o hw hr he _ ih =>
    obtain ⟨g', h⟩ := ih ⟨before.placed, before.broken ++ [e]⟩
    refine ⟨g', ?_⟩
    rw [after, round?_of_stall (s := ⟨g, waiting, before⟩) hw hr he, Option.bind_some, List.append_cons]
    exact h

/-- Exactly one edge is given up in the next round, and it joins two waiting entities. -/
structure GivesUpOne (s : Sorting) (e : Edge) : Prop where
  /-- It is found. -/
  found : s.graph.edgeToBreak? s.waiting = some e
  /-- Its parent waits. -/
  parent_waits : e.parent ∈ s.waiting
  /-- Its child waits. -/
  child_waits : e.child ∈ s.waiting
  /-- They are two entities. -/
  parent_ne_child : e.parent ≠ e.child
  /-- It is given up in the next round. -/
  next : s.round? = some (s.giveUp e)
  /-- It is there, and it is all that is taken away. -/
  one : s.graph.edges.Perm (e :: (s.giveUp e).graph.edges)

/-- When no waiting entity is a root, exactly one edge is given up. -/
theorem exists_givesUpOne {history : List Change} (hs : s.graph = .ofHistory history)
    (hw : s.waiting ≠ []) (hr : s.roots = []) : ∃ e, s.GivesUpOne e := by
  obtain ⟨e, he⟩ := Graph.exists_edgeToBreak? hw hr
  obtain ⟨hp, hc, hse⟩ := Graph.edgeToBreak?_spec he
  refine ⟨e, he, hp, hc, fun hpc => ?_, round?_of_stall hw hr he, ?_⟩
  · rw [hpc, hs, Graph.strength?_ofHistory_self] at hse
    cases hse
  · exact Graph.edges_perm_cons_remove (hs ▸ Graph.nodup_ends_ofHistory history) hse

end Sorting

/-- The rounds of a sort come to an end in the state `t`, after `n` of them. -/
structure Graph.ComesToAnEnd (g : Graph) (entities : List Nat) (n : Nat) (t : Sorting) :
    Prop where
  /-- There are so many rounds. -/
  reached : Sorting.after n (.start g entities) = some t
  /-- There are no more. -/
  last : ∀ m u, Sorting.after m (.start g entities) = some u → m ≤ n
  /-- Nothing waits at the end. -/
  done : t.waiting = []
  /-- What has been placed and given up is the answer. -/
  answer : g.sort entities = .ok t.order
  /-- Whenever no waiting entity is a root, exactly one edge is given up. -/
  stalls : ∀ m u, Sorting.after m (.start g entities) = some u → u.waiting ≠ [] → u.roots = [] →
    ∃ e, u.GivesUpOne e
  /-- There are no more rounds than entities and edges. -/
  bound : n ≤ entities.length + g.size

/-- **A sort comes to an end**: a graph that a history leaves is sorted in no more rounds than there
are entities and edges, and never for want of an edge to give up. -/
theorem Graph.sort_comes_to_an_end (history : List Change) (entities : List Nat) :
    ∃ n t, (ofHistory history).ComesToAnEnd entities n t := by
  obtain ⟨n, o, h, hn⟩ := exists_rounds (ofHistory history) entities
  obtain ⟨g', ht⟩ := Sorting.after_of_rounds h ⟨[], []⟩
  refine ⟨n, _, ht, fun m u hu => Sorting.le_of_after ht rfl hu, rfl, h.sort_eq,
    fun m u hu hw hr => ?_, hn⟩
  obtain ⟨later, hlater⟩ := Sorting.exists_history_of_after hu rfl
  exact Sorting.exists_givesUpOne hlater hw hr

end EntityRelation.Dependency
