import HeapReplay.Proofs.Searching
import Mathlib.Data.List.Perm.Subperm

/-!
# Searches come to an end

`Marking.mark` is a function and has a value for every heap, so that it ends cannot be said of it.
Here a search is taken **step by step** instead.  A step follows one address of the loop that the
search is in, or takes one id off the worklist; `Search.next` says which, and whether there is a step
at all.  How many steps follow one another is left open: a run (`Search.Runs`) is there only if they
come to an end.

**Every search has exactly one run**, and what the run leaves is what `Marking.mark` says
(`Search.exists_runs_start_iff`).  No single length gets less at every step: a node without a mark
makes the worklist longer, and an id that is taken off it begins a new loop.  So the measure is a
pair (`Search.Goes.decreases`): first what is left to do at most, the unmarked nodes and the open ids
together, and then the addresses that the loop has still to follow.

**What a run does to the worklist** is bounded by what its moves account for (`Marking.Balanced`):
each push is a new mark and is counted, and what was waiting or is pushed is popped or still waits.
A search may begin with any marks and with any ids on its worklist, such as a search that has failed
has left; `search_ends` is about all of them.
-/

namespace HeapReplay

/-- What a step of a search does to its worklist. -/
inductive Move where
  /-- A node without a mark is met: it is marked, and its id is put on the worklist. -/
  | push (id : Nat)
  /-- An id is taken off the worklist. -/
  | pop (id : Nat)
  /-- A node with a mark is met, and nothing is done. -/
  | pass
deriving DecidableEq, Repr

namespace Move

/-- The id that is put on the worklist. -/
def pushed? : Move → Option Nat
  | push id => some id
  | pop _ | pass => none

/-- The id that is taken off the worklist. -/
def popped? : Move → Option Nat
  | pop id => some id
  | push _ | pass => none

/-- The ids that moves put on the worklist, in their order. -/
def pushed (moves : List Move) : List Nat :=
  moves.filterMap pushed?

/-- The ids that moves take off the worklist, in their order. -/
def popped (moves : List Move) : List Nat :=
  moves.filterMap popped?

@[simp] lemma pushed_append (moves moves' : List Move) :
    pushed (moves ++ moves') = pushed moves ++ pushed moves' :=
  List.filterMap_append

@[simp] lemma popped_append (moves moves' : List Move) :
    popped (moves ++ moves') = popped moves ++ popped moves' :=
  List.filterMap_append

end Move

open Move
open scoped List

/-- The addresses that are followed when the node with an id is expanded. -/
def HeapGraph.targets (g : HeapGraph) (id : Nat) : List Address :=
  match g.node? id with
  | none => []
  | some n => if n.includable then n.edges.map (·.target) else []

/-- A search in the middle of a loop over addresses. -/
structure Search where
  marking : Marking
  /-- What refers to the addresses of the loop. -/
  context : String
  /-- The addresses that the loop has still to follow. -/
  pending : List Address
deriving DecidableEq, Repr

namespace Search

/-- What a search does next: it makes a move, or it is over, with or without a failure. -/
inductive Turn where
  | go (move : Move) (next : Search)
  | stop (failure : Option Failure)
deriving DecidableEq, Repr

/-- A search that has still to follow all roots, black before gray. -/
def start (s : Marking) : Search :=
  { marking := { s with count := 0 }
    context := "root"
    pending := s.graph.roots.map (·.address) }

/-- One step: the next address of the loop is followed, and when there is none, the latest id is
taken off the worklist and the loop over its targets begins. -/
def next (s : Search) : Turn :=
  match s.pending with
  | a :: rest =>
    match s.marking.graph.resolve a s.context with
    | .error failure => .stop (some failure)
    | .ok n =>
      if s.marking.graph.isMarked n then .go .pass { s with pending := rest }
      else
        .go (.push n.id)
          { s with
            marking :=
              { graph := s.marking.graph.addMark n.id
                worklist := n.id :: s.marking.worklist
                count := s.marking.count + 1 }
            pending := rest }
  | [] =>
    match s.marking.worklist with
    | [] => .stop none
    | id :: rest =>
      .go (.pop id)
        { marking := { s.marking with worklist := rest }
          context := "edge"
          pending := s.marking.graph.targets id }

/-- The moves that a search makes to its end, and what it leaves there.  Only a search that ends has
a run. -/
inductive Runs : Search → List Move → Progress Marking Failure → Prop where
  | stop {s : Search} {failure : Option Failure} :
      s.next = .stop failure → Runs s [] { state := s.marking, failure }
  | go {s t : Search} {move : Move} {moves : List Move} {p : Progress Marking Failure} :
      s.next = .go move t → Runs t moves p → Runs s (move :: moves) p

/-! ## What a step does -/

/-- The three ways in which a search goes on. -/
inductive Goes : Search → Move → Search → Prop where
  | pass {m : Marking} {context : String} {a : Address} {rest : List Address} {n : Node}
      (found : m.graph.resolve a context = .ok n) (old : m.graph.isMarked n = true) :
      Goes ⟨m, context, a :: rest⟩ .pass ⟨m, context, rest⟩
  | push {m : Marking} {context : String} {a : Address} {rest : List Address} {n : Node}
      (found : m.graph.resolve a context = .ok n) (fresh : m.graph.isMarked n = false) :
      Goes ⟨m, context, a :: rest⟩ (.push n.id) ⟨m.visit n, context, rest⟩
  | pop {m : Marking} {context : String} {id : Nat} {rest : List Nat}
      (opened : m.worklist = id :: rest) :
      Goes ⟨m, context, []⟩ (.pop id) ⟨{ m with worklist := rest }, "edge", m.graph.targets id⟩

lemma goes_of_next {s t : Search} {move : Move} (h : s.next = .go move t) : Goes s move t := by
  obtain ⟨m, context, pending⟩ := s
  cases pending with
  | cons a rest =>
      simp only [next] at h
      split at h
      · cases h
      · rename_i n found
        split at h
        · rename_i old
          cases h
          exact .pass found old
        · rename_i fresh
          cases h
          have hfresh : m.graph.isMarked n = false := by simpa using fresh
          -- `next` writes out what a visit does to a node without a mark
          have hgoes : Goes ⟨m, context, a :: rest⟩ (.push n.id) ⟨m.visit n, context, rest⟩ :=
            .push found hfresh
          rwa [Marking.visit, if_neg fresh] at hgoes
  | nil =>
      simp only [next] at h
      split at h
      · cases h
      · rename_i id rest opened
        cases h
        exact .pop opened

/-- **Every step brings the end nearer**: there is less left to do, or the loop gets shorter while
no more is left to do. -/
lemma Goes.decreases {s t : Search} {move : Move} (h : Goes s move t) :
    t.marking.remaining < s.marking.remaining ∨
      t.marking.remaining ≤ s.marking.remaining ∧ t.pending.length < s.pending.length := by
  cases h with
  | pass found old => exact Or.inr ⟨Nat.le_refl _, by simp⟩
  | push found fresh =>
      exact Or.inr
        ⟨Marking.remaining_visit_le (HeapGraph.mem_nodes_of_resolve found), by simp⟩
  | pop opened => exact Or.inl (by simp [Marking.remaining, opened])

/-- **Every search comes to an end.** -/
lemma exists_runs (s : Search) : ∃ moves p, s.Runs moves p := by
  cases h : s.next with
  | stop failure => exact ⟨[], _, .stop h⟩
  | go move t =>
      have hlex := (goes_of_next h).decreases
      obtain ⟨moves, p, hruns⟩ := exists_runs t
      exact ⟨move :: moves, p, .go h hruns⟩
termination_by (s.marking.remaining, s.pending.length)
decreasing_by
  -- a pop leaves less to do, whatever loop it begins; the other moves shorten the loop
  rcases hlex with hless | ⟨hle, hless⟩
  · exact Prod.Lex.left _ _ hless
  · exact Prod.Lex.right' _ hle hless

lemma Runs.moves_unique {s : Search} {moves moves' : List Move} {p p' : Progress Marking Failure}
    (h : s.Runs moves p) (h' : s.Runs moves' p') : moves = moves' := by
  induction h generalizing moves' with
  | stop hstop =>
      cases h' with
      | stop _ => rfl
      | go hgo _ =>
          rw [hstop] at hgo
          cases hgo
  | go hgo _ ih =>
      cases h' with
      | stop hstop =>
          rw [hgo] at hstop
          cases hstop
      | go hgo' hruns =>
          rw [hgo] at hgo'
          cases hgo'
          rw [ih hruns]

/-! ## Where a run ends -/

/-- How a search ends from where it is: the loop is run to its end, and then the worklist is
emptied. -/
def finish (s : Search) : Progress Marking Failure :=
  (Progress.run (Marking.follow s.context) s.marking s.pending).andThen Marking.drain

/-- An id without a node is dropped. -/
lemma drain_of_missing {m : Marking} {id : Nat} {rest : List Nat} (opened : m.worklist = id :: rest)
    (missing : m.graph.node? id = none) : m.drain = Marking.drain { m with worklist := rest } := by
  rw [Marking.drain]
  split
  · rename_i hw
    rw [opened] at hw
    cases hw
  · rename_i id' rest' hw
    obtain ⟨rfl, rfl⟩ := List.cons.inj (opened.symm.trans hw)
    rw [missing]

/-- To empty a worklist is to take off its first id, to run the loop over the targets of this id,
and to empty what is then left. -/
lemma finish_targets {m : Marking} {id : Nat} {rest : List Nat} (opened : m.worklist = id :: rest) :
    finish ⟨{ m with worklist := rest }, "edge", m.graph.targets id⟩ = m.drain := by
  cases hnode : m.graph.node? id with
  | none =>
      have htargets : m.graph.targets id = [] := by rw [HeapGraph.targets, hnode]
      rw [htargets, drain_of_missing opened hnode]
      rfl
  | some n =>
      have htargets : m.graph.targets id =
          if n.includable then n.edges.map (·.target) else [] := by
        rw [HeapGraph.targets, hnode]
      have hexpand : Marking.expand { m with worklist := rest } n =
          Progress.run (Marking.follow "edge") { m with worklist := rest }
            (m.graph.targets id) := by
        rw [htargets, Marking.expand]
        split_ifs <;> rfl
      rw [Marking.drain_of_cons opened hnode, hexpand, finish]

lemma Goes.finish_eq {s t : Search} {move : Move} (h : Goes s move t) : s.finish = t.finish := by
  cases h with
  | pass found old =>
      rw [finish, Progress.run, Marking.follow, found]
      simp only [Marking.visit, old, if_true]
      rfl
  | push found fresh =>
      rw [finish, Progress.run, Marking.follow, found]
      rfl
  | pop opened =>
      rw [finish_targets opened]
      rfl

lemma finish_of_stop {s : Search} {failure : Option Failure} (h : s.next = .stop failure) :
    s.finish = { state := s.marking, failure } := by
  obtain ⟨m, context, pending⟩ := s
  cases pending with
  | cons a rest =>
      simp only [next] at h
      split at h
      · rename_i f hf
        cases h
        rw [finish, Progress.run, Marking.follow, hf]
        rfl
      · split at h <;> cases h
  | nil =>
      simp only [next] at h
      split at h
      · rename_i hw
        cases h
        exact Marking.drain_of_nil hw
      · cases h

/-- **A run ends where the search does.** -/
lemma Runs.eq_finish {s : Search} {moves : List Move} {p : Progress Marking Failure}
    (h : s.Runs moves p) : p = s.finish := by
  induction h with
  | stop hstop => exact (finish_of_stop hstop).symm
  | go hgo _ ih => rw [(goes_of_next hgo).finish_eq, ih]

lemma finish_start (s : Marking) : (start s).finish = s.mark :=
  rfl

/-- **Every search has exactly one run**, and it leaves what the search leaves. -/
lemma exists_runs_start_iff (s : Marking) :
    ∃ moves, ∀ moves' p, (start s).Runs moves' p ↔ moves' = moves ∧ p = s.mark := by
  obtain ⟨moves, p, hruns⟩ := exists_runs (start s)
  obtain rfl : p = s.mark := hruns.eq_finish.trans (finish_start s)
  refine ⟨moves, fun moves' p' => ⟨fun h => ⟨?_, ?_⟩, ?_⟩⟩
  · exact h.moves_unique hruns
  · exact h.eq_finish.trans (finish_start s)
  · rintro ⟨rfl, rfl⟩
    exact hruns

end Search

namespace Marking

/-! ## What the moves account for -/

/-- The moves from one state of a search to a later one account for all that is different: each push
is a new mark, of a node that had none, and is counted; and what was waiting or is pushed is popped
or still waits. -/
structure Balanced (s : Marking) (moves : List Move) (s' : Marking) : Prop where
  graph : s'.graph = s.graph.withMarks ((pushed moves).reverse ++ s.graph.marked)
  once : (pushed moves).Nodup
  fresh : ∀ id ∈ pushed moves, ∃ n ∈ s.graph.nodes, n.id = id ∧ s.graph.isMarked n = false
  count : s'.count = s.count + (pushed moves).length
  worklist : (popped moves ++ s'.worklist).Perm (pushed moves ++ s.worklist)

namespace Balanced

variable {s s' s'' : Marking} {moves moves' : List Move}

lemma refl (s : Marking) : Balanced s [] s where
  graph := rfl
  once := List.nodup_nil
  fresh := by simp [pushed]
  count := rfl
  worklist := .refl _

/-- Accounts of two stretches of a search are put together: what the second stretch pushes had no
mark when it began, so the first one has not pushed it. -/
lemma trans (h : Balanced s moves s') (h' : Balanced s' moves' s'') :
    Balanced s (moves ++ moves') s'' := by
  have hfresh : ∀ id ∈ pushed moves', id ∉ pushed moves ∧
      ∃ n ∈ s.graph.nodes, n.id = id ∧ s.graph.isMarked n = false := by
    intro id hid
    obtain ⟨n, hn, rfl, hunmarked⟩ := h'.fresh id hid
    rw [h.graph] at hn hunmarked
    simp only [HeapGraph.isMarked, HeapGraph.marked_withMarks, List.contains_eq_mem,
      List.mem_append, List.mem_reverse, decide_eq_false_iff_not, not_or] at hunmarked
    exact ⟨hunmarked.1, n, hn, rfl, by simpa [HeapGraph.isMarked] using hunmarked.2⟩
  refine ⟨?_, ?_, fun id hid => ?_, ?_, ?_⟩
  · rw [h'.graph, h.graph, pushed_append, List.reverse_append, List.append_assoc]
    rfl
  · rw [pushed_append]
    exact List.nodup_append'.mpr ⟨h.once, h'.once, fun id hid hid' => (hfresh id hid').1 hid⟩
  · rw [pushed_append] at hid
    rcases List.mem_append.mp hid with hid | hid
    · exact h.fresh id hid
    · exact (hfresh id hid).2
  · rw [h'.count, h.count, pushed_append, List.length_append, Nat.add_assoc]
  · rw [pushed_append, popped_append, List.append_assoc, List.append_assoc]
    -- what the first stretch leaves waiting is what the second one begins with
    calc popped moves ++ (popped moves' ++ s''.worklist)
        ~ popped moves ++ (pushed moves' ++ s'.worklist) := h'.worklist.append_left _
      _ ~ pushed moves' ++ (popped moves ++ s'.worklist) := List.perm_append_comm_assoc _ _ _
      _ ~ pushed moves' ++ (pushed moves ++ s.worklist) := h.worklist.append_left _
      _ ~ pushed moves ++ (pushed moves' ++ s.worklist) := List.perm_append_comm_assoc _ _ _

/-- No more is pushed than there are nodes without a mark. -/
lemma length_pushed_le (h : Balanced s moves s') :
    (pushed moves).length ≤ s.graph.unmarked.length := by
  have hsub : pushed moves ⊆ s.graph.unmarked.map Node.id := by
    intro id hid
    obtain ⟨n, hn, rfl, hunmarked⟩ := h.fresh id hid
    exact List.mem_map_of_mem (List.mem_filter.mpr ⟨hn, by simp [hunmarked]⟩)
  have hlen := h.once.length_le_of_subset hsub
  rwa [List.length_map] at hlen

/-- No more is popped than was waiting and had no mark, taken together. -/
lemma length_popped_le (h : Balanced s moves s') :
    (popped moves).length ≤ s.worklist.length + s.graph.unmarked.length := by
  have hlen := h.worklist.length_eq
  have hpushed := h.length_pushed_le
  simp only [List.length_append] at hlen
  omega

end Balanced

end Marking

namespace Search

/-- **Each step accounts for itself.** -/
lemma Goes.balanced {s t : Search} {move : Move} (h : Goes s move t) :
    s.marking.Balanced [move] t.marking := by
  cases h with
  | pass found old => exact ⟨rfl, List.nodup_nil, by simp [pushed, pushed?], rfl, .refl _⟩
  | @push m context a rest n found fresh =>
      have hm : n.id ∉ m.graph.marked := by simpa [HeapGraph.isMarked] using fresh
      rw [Marking.visit_of_unmarked hm]
      refine ⟨rfl, List.nodup_singleton _, fun id hid => ?_, rfl, .refl _⟩
      obtain rfl : id = n.id := List.mem_singleton.mp hid
      exact ⟨n, HeapGraph.mem_nodes_of_resolve found, rfl, fresh⟩
  | @pop m context id rest opened =>
      refine ⟨rfl, List.nodup_nil, by simp [pushed, pushed?], rfl, ?_⟩
      rw [opened]
      exact .refl _

/-- **A whole run accounts for itself.** -/
lemma Runs.balanced {s : Search} {moves : List Move} {p : Progress Marking Failure}
    (h : s.Runs moves p) : s.marking.Balanced moves p.state := by
  induction h with
  | stop _ => exact .refl _
  | go hgo _ ih => exact (goes_of_next hgo).balanced.trans ih

end Search

/-- **Every search ends, and it pushes each node once at most.**  Whatever is marked, whatever waits
on the worklist and wherever the edges lead, a search that begins there has exactly one run, so it
comes to an end, at which it returns or fails.  On the way it puts no id on the worklist twice, and
only ids of nodes that were not marked when it began.  What it takes off was waiting or has been
pushed, and it takes off no more ids than were waiting and nodes were not marked, taken together.
What it has counted at the end is the number of its pushes. -/
theorem search_ends (s : Marking) :
    ∃ moves, (∀ moves' p, (Search.start s).Runs moves' p ↔ moves' = moves ∧ p = s.mark) ∧
      (pushed moves).Nodup ∧
      (∀ id ∈ pushed moves, ∃ n ∈ s.graph.nodes, n.id = id ∧ s.graph.isMarked n = false) ∧
      (popped moves ++ s.mark.state.worklist).Perm (pushed moves ++ s.worklist) ∧
      (popped moves).length ≤ s.worklist.length + s.graph.unmarked.length ∧
      s.mark.state.count = (pushed moves).length := by
  obtain ⟨moves, hruns⟩ := Search.exists_runs_start_iff s
  have h := ((hruns moves s.mark).mpr ⟨rfl, rfl⟩).balanced
  refine ⟨moves, hruns, h.once, h.fresh, h.worklist, h.length_popped_le, ?_⟩
  rw [h.count]
  exact Nat.zero_add _

/-- The bound on what is popped is met: an object waits although it is not marked, and so it is pushed
once more and popped twice, and its two edges to itself lead to nothing. -/
example :
    let self : Node :=
      { id := 0, address := 0x1, color := .black, kind := .object
        edges := [{ target := 0x1, label := .key 0 }, { target := 0x1, label := .key 1 }] }
    let g : HeapGraph :=
      { nodes := [self], registry := .ofAddresses [0x1]
        blackRoots := [{ address := 0x1, color := .black }] }
    ∃ p, (Search.start { graph := g, worklist := [0] }).Runs
      [.push 0, .pop 0, .pass, .pass, .pop 0, .pass, .pass] p ∧ p.failure = none :=
  ⟨_, .go rfl <| .go rfl <| .go rfl <| .go rfl <| .go rfl <| .go rfl <| .go rfl <| .stop rfl, rfl⟩

end HeapReplay
