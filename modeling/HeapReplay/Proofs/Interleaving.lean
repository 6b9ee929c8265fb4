import HeapReplay.Proofs.Continuing
import HeapReplay.Proofs.Growing
import Mathlib.Data.List.Perm.Basic

/-!
# Edits and searches in any order

A session is a graph that grows while any number of markers search it.  Searches fail in the middle,
at an address that has no node yet, and leave marks and a worklist behind; later searches, of the
same or of another marker, go on from there, and by then the graph may have grown.

`Session.Sound` holds in every session, whatever the order (`Session.sound_run`).  An edit keeps it
because what is reached stays reached; a search keeps it because to one marker the worklists of the
others are nothing but marked ids (`Continuing`).

What it comes to is `marks_sound`: every mark is on a node at the end of a path from a root that is
there **now**, and no node waits in two places.
-/

namespace HeapReplay

namespace Session

/-- The marks of a session are on reached nodes, and what is on its worklists is marked and is there
once. -/
structure Sound (s : Session) : Prop where
  indexed : s.graph.Indexed
  reached : ∀ id ∈ s.graph.marked, ∃ n, s.graph.Reached [] n ∧ n.id = id
  opened : s.worklists.flatten ⊆ s.graph.marked
  once : s.worklists.flatten.Nodup

lemma sound_initial : Sound {} :=
  ⟨HeapGraph.indexed_empty, by simp, by simp, by simp⟩

lemma Sound.edit {s : Session} (h : s.Sound) (e : Edit) : (s.step (.edit e)).Sound := by
  have hmarked : (s.graph.edit e).marked = s.graph.marked := HeapGraph.marked_edit s.graph e
  refine ⟨h.indexed.edit e, fun id hid => ?_, fun id hid => ?_, h.once⟩
  · obtain ⟨n, hn, rfl⟩ := h.reached id (hmarked ▸ hid)
    obtain ⟨n', hgrown, hn'⟩ := (HeapGraph.grows_edit s.graph e).exists_reached hn
    exact ⟨n', hn', hgrown.id⟩
  · exact hmarked.symm ▸ h.opened hid

lemma Sound.newMarker {s : Session} (h : s.Sound) : (s.step .newMarker).Sound := by
  have hflat : (s.step .newMarker).worklists.flatten = s.worklists.flatten := by
    simp [step]
  exact ⟨h.indexed, h.reached, by rw [hflat]; exact h.opened, by rw [hflat]; exact h.once⟩

/-! ## Searches -/

/-- The ids on the worklists of all markers but one. -/
def others (s : Session) (marker : Nat) : List Nat :=
  (s.worklists.eraseIdx marker).flatten

/-- One worklist and the others hold what all of them hold. -/
lemma perm_flatten {worklists : List (List Nat)} {marker : Nat} {worklist : List Nat}
    (h : worklists[marker]? = some worklist) :
    (worklist ++ (worklists.eraseIdx marker).flatten).Perm worklists.flatten := by
  obtain ⟨hlt, rfl⟩ := List.getElem?_eq_some_iff.mp h
  exact (List.getElem_cons_eraseIdx_perm hlt).flatten

/-- A search by a marker begins as one that goes on beside the other worklists. -/
lemma Sound.continuing {s : Session} (h : s.Sound) {marker : Nat} {worklist : List Nat}
    (hw : s.worklists[marker]? = some worklist) :
    Marking.Continuing s.graph (s.others marker)
      (fun id => id ∈ s.graph.marked ∧ id ∉ worklist) [] { graph := s.graph, worklist } := by
  have hperm : (worklist ++ s.others marker).Perm s.worklists.flatten := perm_flatten hw
  exact .start h.reached (fun _ hid => h.opened (hperm.subset hid)) (hperm.nodup_iff.mpr h.once) 0

/-- A search leaves the worklists of the other markers alone. -/
lemma Sound.mark {s : Session} (h : s.Sound) (marker : Nat) : (s.step (.mark marker)).Sound := by
  rw [step, search]
  cases hw : s.worklists[marker]? with
  | none => exact h
  | some worklist =>
      obtain ⟨expanding, hsearch, -⟩ := (h.continuing hw).mark h.indexed
      dsimp only [Option.map_some]
      generalize Marking.mark { graph := s.graph, worklist } = p at hsearch ⊢
      have hset : (s.worklists.set marker p.state.worklist)[marker]? = some p.state.worklist := by
        rw [List.getElem?_set_self (List.getElem?_eq_some_iff.mp hw).1]
      have hperm := perm_flatten hset
      rw [List.eraseIdx_set_eq] at hperm
      refine ⟨?_, fun id hid => ?_, fun id hid => ?_, ?_⟩
      · rw [hsearch.graph]
        exact h.indexed.withMarks _
      · obtain ⟨n, hn, rfl⟩ := hsearch.reached id hid
        obtain ⟨n', hgrown, hn'⟩ := (s.graph.grows_withMarks p.state.graph.marked).exists_reached hn
        exact ⟨n', by rw [hsearch.graph]; exact hn', hgrown.id⟩
      · exact hsearch.opened (hperm.symm.subset hid)
      · exact hperm.nodup_iff.mp hsearch.once

/-- **Every event keeps soundness**, failed searches and refused edits included. -/
lemma Sound.step {s : Session} (h : s.Sound) (e : Event) : (s.step e).Sound := by
  cases e with
  | edit e => exact h.edit e
  | newMarker => exact h.newMarker
  | mark marker => exact h.mark marker

lemma sound_run (events : List Event) : (run events).Sound := by
  induction events using List.reverseRecOn with
  | nil => exact sound_initial
  | append_singleton events e ih =>
      rw [run, List.foldl_concat]
      exact ih.step e

end Session

/-- **Marks are sound in every session.**  Whatever edits and searches have come before, in whatever
order and however they have ended: every marked node is the end of a path from a root whose nodes
before the last are all includable, every id on a worklist is that of a marked node, and no id is
twice on one worklist or on two. -/
theorem marks_sound (events : List Event) :
    let s := Session.run events
    (∀ n ∈ s.graph.nodes, s.graph.isMarked n = true →
      ∃ path, s.graph.IsPath path n ∧ ∀ v ∈ path.dropLast, v.includable = true) ∧
    (∀ worklist ∈ s.worklists, ∀ id ∈ worklist,
      ∃ n ∈ s.graph.nodes, n.id = id ∧ s.graph.isMarked n = true) ∧
    (∀ worklist ∈ s.worklists, worklist.Nodup) ∧
    s.worklists.Pairwise List.Disjoint := by
  intro s
  have h : s.Sound := Session.sound_run events
  obtain ⟨hnodup, hdisjoint⟩ := List.nodup_flatten.mp h.once
  refine ⟨fun n hn hmark => ?_, fun worklist hw id hid => ?_, hnodup, hdisjoint⟩
  · obtain ⟨m, hm, heq⟩ := h.reached n.id (by simpa [HeapGraph.isMarked] using hmark)
    obtain rfl := h.indexed.eq_of_id_eq hm.mem_nodes hn heq
    obtain ⟨path, hpath, -, hinner⟩ := HeapGraph.reached_iff_exists_path.mp hm
    exact ⟨path, hpath, hinner⟩
  · have hmark := h.opened (List.mem_flatten_of_mem hw hid)
    obtain ⟨n, hn, rfl⟩ := h.reached id hmark
    exact ⟨n, hn.mem_nodes, rfl, by simpa [HeapGraph.isMarked] using hmark⟩

end HeapReplay
