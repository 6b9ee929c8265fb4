import HeapReplay.Proofs.Sections
import HeapReplay.Proofs.Sequences

/-!
# Logs that differ in the order of their sections

Sections may stand in any order, be cut in pieces and interleave.  What a log says is the sequence of
its root records and the sequence of its main records; how the two are shuffled, and what comments,
empty lines and weak map records lie between, does not matter (`sections_commute`).

`parts_of_parse` is one half of it: an accepted log falls into two parts.  The other half is here:
**two parts that can be read can be read in any interleaving** (`exists_run_enterAt`).  A main record
looks at nodes, names and the owner, and these are the same whether or not roots were added in
between; a root record looks at nothing.  References are checked only when all records are in, so
nothing depends on whether a root comes before its node.

The parts determine the graph as well (`HasParts.graph_eq`), hence both logs have one graph, or both
are refused.  Which failure is reported does depend on the order.
-/

namespace HeapReplay

namespace Dump

/-- Every record of the log stands in a section. -/
def Sectioned (text : String) : Prop :=
  ∀ p ∈ outline text, p.within ≠ none

/-- Logs with the same root records and the same main records, each in the same order. -/
structure SameSections (text text' : String) : Prop where
  roots : (recordsIn .roots text').map Line.text = (recordsIn .roots text).map Line.text
  main : (recordsIn .main text').map Line.text = (recordsIn .main text).map Line.text

lemma SameSections.symm {text text' : String} (h : SameSections text text') :
    SameSections text' text :=
  ⟨h.roots.symm, h.main.symm⟩

namespace Reader

variable {file file' : String}

/-! ## Reading the parts in any interleaving -/

/-- A main record that a reader takes in is taken in by every reader with the same nodes, names and
owner. -/
lemma Entered.exists_of_sameMain {r m m' : Reader} {words : List String}
    (h : Entered m words m') (within : m.within = some .main) (same : r.SameMain m) :
    ∃ r', Entered { r with within := some .main } words r' := by
  cases h with
  | root hw _ => rw [within] at hw; cases hw
  | weakMap hw => rw [within] at hw; cases hw
  | node _ unmarked read classified fresh =>
      exact ⟨_, .node rfl unmarked read classified (same.registry ▸ fresh)⟩
  | edge _ marked owned read interned =>
      exact ⟨_, .edge rfl marked (same.owner ▸ owned) read (same.interner ▸ interned)⟩

/-- A record is taken in if its part goes on: a root record that can be read, or a main record that
can be entered after the main records before it. -/
lemma HasParts.exists_enterAt {records : List Placed} {r : Reader} (h : HasParts file records r)
    {p : Placed} (sectioned : p.within ≠ none)
    (root : p.within = some .roots → ∃ root, readRoot (Text.words p.line.text) = .ok root)
    (main : p.within = some .main → ∃ m m', Progress.run (Reader.enter file)
      { within := some .main } (sectionLines .main records) = { state := m } ∧
      m.enter file p.line = .ok m') :
    ∃ r', r.enterAt file p = .ok r' := by
  suffices hentered : ∃ r', Entered { r with within := p.within } (Text.words p.line.text) r' by
    obtain ⟨r', hr'⟩ := hentered
    exact ⟨r', enter_eq_ok_iff.mpr hr'⟩
  cases hwithin : p.within with
  | none => exact absurd hwithin sectioned
  | some s =>
      cases s with
      | roots =>
          obtain ⟨root, hread⟩ := root hwithin
          exact ⟨_, .root rfl hread⟩
      | weakMaps => exact ⟨_, .weakMap rfl⟩
      | main =>
          obtain ⟨m, m', hrun, hstep⟩ := main hwithin
          obtain ⟨m₀, hrun₀, hmain, hsame⟩ := h.main
          obtain rfl : m = m₀ := congrArg Progress.state (hrun.symm.trans hrun₀)
          exact (enter_eq_ok_iff.mp hstep).exists_of_sameMain hmain hsame

/-- **Records are taken in if their parts are**: each root record can be read, and the main records
can be entered one after the other. -/
lemma exists_run_enterAt {records : List Placed} (sectioned : ∀ p ∈ records, p.within ≠ none)
    (roots : ∀ l ∈ sectionLines .roots records, ∃ root, readRoot (Text.words l.text) = .ok root)
    {m : Reader} (main : Progress.run (Reader.enter file) { within := some .main }
      (sectionLines .main records) = { state := m }) :
    ∃ r, Progress.run (Reader.enterAt file) {} records = { state := r } := by
  induction records using List.reverseRecOn generalizing m with
  | nil => exact ⟨{}, rfl⟩
  | append_singleton records p ih =>
      rw [sectionLines_snoc] at roots main
      obtain ⟨m₀, hbefore, hlast⟩ := Progress.run_append_eq_ok.mp main
      obtain ⟨r, hrun⟩ := ih (fun q hq => sectioned q (List.mem_append_left _ hq))
        (fun l hl => roots l (List.mem_append_left _ hl)) hbefore
      obtain ⟨r', hstep⟩ := (hasParts_of_run hrun).exists_enterAt (sectioned p (by simp))
        (fun hwithin => roots p.line (by simp [hwithin])) fun hwithin => by
          rw [if_pos hwithin] at hlast
          obtain ⟨m', hentered, -⟩ := Progress.run_cons_eq_ok.mp hlast
          exact ⟨m₀, m', hbefore, hentered⟩
      exact ⟨r', Progress.run_append_eq_ok.mpr
        ⟨r, hrun, Progress.run_cons_eq_ok.mpr ⟨r', hstep, rfl⟩⟩⟩

/-- Records are entered for their texts, wherever they stand. -/
lemma run_enter_congr {ls ls' : List Line} (h : ls'.map Line.text = ls.map Line.text)
    {r r' : Reader} (hrun : Progress.run (Reader.enter file) r ls = { state := r' }) :
    Progress.run (Reader.enter file') r ls' = { state := r' } := by
  induction ls generalizing r ls' with
  | nil =>
      obtain rfl : ls' = [] := List.map_eq_nil_iff.mp h
      exact hrun
  | cons l ls ih =>
      obtain ⟨l', ls'', rfl, htext, hrest⟩ := List.map_eq_cons_iff.mp h
      obtain ⟨next, hstep, hnext⟩ := Progress.run_cons_eq_ok.mp hrun
      refine Progress.run_cons_eq_ok.mpr ⟨next, ?_, ih hrest hnext⟩
      rw [enter_eq_ok_iff] at hstep ⊢
      rwa [htext]

/-! ## The graph of the parts -/

/-- **The parts determine the graph.** -/
lemma HasParts.graph_eq {records records' : List Placed} {r r' : Reader}
    (h : HasParts file records r) (h' : HasParts file' records' r')
    (roots : (sectionLines .roots records').map Line.text
      = (sectionLines .roots records).map Line.text)
    (main : (sectionLines .main records').map Line.text
      = (sectionLines .main records).map Line.text)
    (marked : r'.graph.marked = r.graph.marked) : r'.graph = r.graph := by
  obtain ⟨rs, hrs, hblack, hgray⟩ := h.roots
  obtain ⟨rs', hrs', hblack', hgray'⟩ := h'.roots
  obtain ⟨m, hmain, -, hsame⟩ := h.main
  obtain ⟨m', hmain', -, hsame'⟩ := h'.main
  -- reading is a function, so equal texts have equal roots
  let Reads (text : String) (root : Root) : Prop := readRoot (Text.words text) = .ok root
  have hunique : Relator.RightUnique Reads :=
    fun _ _ _ hread hread' => Except.ok.inj (hread.symm.trans hread')
  obtain rfl : rs' = rs := by
    have htexts : List.Forall₂ Reads ((sectionLines .roots records).map Line.text) rs :=
      List.forall₂_map_left_iff.mpr hrs
    have htexts' : List.Forall₂ Reads ((sectionLines .roots records').map Line.text) rs' :=
      List.forall₂_map_left_iff.mpr hrs'
    rw [roots] at htexts'
    exact List.right_unique_forall₂' hunique htexts' htexts
  obtain rfl : m' = m :=
    congrArg Progress.state (hmain'.symm.trans (run_enter_congr main hmain))
  have hnodes := hsame'.nodes.trans hsame.nodes.symm
  have hregistry := hsame'.registry.trans hsame.registry.symm
  have hinterner := hsame'.interner.trans hsame.interner.symm
  have hblackRoots := hblack'.trans hblack.symm
  have hgrayRoots := hgray'.trans hgray.symm
  cases hg : r.graph
  cases hg' : r'.graph
  simp_all

end Reader

/-! ## Whole logs -/

/-- A log is accepted, with the same graph, however the sections of an accepted log are
rearranged. -/
lemma parse_eq_ok_of_sameSections {file file' text text' : String} {g : HeapGraph}
    (same : SameSections text text') (sectioned : Sectioned text') (h : parse file text = .ok g) :
    parse file' text' = .ok g := by
  obtain ⟨r, hrun, hdangling, rfl⟩ := parse_eq_ok_iff_outline.mp h
  have hparts := Reader.hasParts_of_run hrun
  obtain ⟨roots, hroots, -, -⟩ := hparts.roots
  obtain ⟨m, hmain, -, -⟩ := hparts.main
  have hread : ∀ l' ∈ sectionLines .roots (outline text'),
      ∃ root, readRoot (Text.words l'.text) = .ok root := by
    intro l' hl'
    have hmem : l'.text ∈ (recordsIn .roots text).map Line.text :=
      same.roots ▸ List.mem_map_of_mem hl'
    obtain ⟨l, hl, htext⟩ := List.mem_map.mp hmem
    obtain ⟨root, -, hroot⟩ := exists_of_forall₂ hroots hl
    exact ⟨root, htext ▸ hroot⟩
  obtain ⟨r', hrun'⟩ := Reader.exists_run_enterAt sectioned hread
    (Reader.run_enter_congr same.main hmain)
  have hparts' := Reader.hasParts_of_run hrun'
  have hsound := Reader.sound_run_enterAt file (outline text)
  have hsound' := Reader.sound_run_enterAt file' (outline text')
  rw [hrun] at hsound
  rw [hrun'] at hsound'
  have hgraph : r'.graph = r.graph := hparts.graph_eq hparts' same.roots same.main
    (hsound'.built.marked_eq_nil.trans hsound.built.marked_eq_nil.symm)
  exact parse_eq_ok_iff_outline.mpr ⟨r', hrun', hgraph ▸ hdangling, hgraph⟩

/-- **Sections commute.**  Of two logs with the same root records and the same main records, however
their sections are arranged, both have the same graph or both are refused. -/
theorem sections_commute {text text' : String} (sectioned : Sectioned text)
    (sectioned' : Sectioned text') (same : SameSections text text') (file file' : String) :
    (∃ g, parse file text = .ok g ∧ parse file' text' = .ok g) ∨
      (∃ f, parse file text = .error f) ∧ ∃ f', parse file' text' = .error f' := by
  cases h : parse file text with
  | ok g => exact Or.inl ⟨g, rfl, parse_eq_ok_of_sameSections same sectioned' h⟩
  | error f =>
      cases h' : parse file' text' with
      | ok g =>
          have haccepted : parse file text = .ok g :=
            parse_eq_ok_of_sameSections same.symm sectioned h'
          rw [h] at haccepted
          cases haccepted
      | error f' => exact Or.inr ⟨⟨f, rfl⟩, f', rfl⟩

/-- A log in the usual order: its roots, then its nodes. -/
def orderlyLog : String :=
  "# Roots.\n0x1 B a\n0x2 G b\n==========\n0x1 B scope\n> 0x2 B next\n0x2 B string"

/-- The same records, in pieces and with other things between them. -/
def shuffledLog : String :=
  "==========\n0x1 B scope\n# Roots.\n0x1 B a\n\n# Weak maps.\nx\n==========\n#\n> 0x2 B next\n" ++
    "# Roots.\n0x2 G b\n==========\n0x2 B string\n\x7b\nx"

/-- Both have the same graph. -/
theorem orderlyLog_shuffled :
    Sectioned orderlyLog ∧ Sectioned shuffledLog ∧ SameSections orderlyLog shuffledLog ∧
      ∃ g, parse "heap.log" orderlyLog = .ok g ∧ parse "other.log" shuffledLog = .ok g := by
  have orderly : outline orderlyLog = [
      ⟨some .roots, ⟨2, "0x1 B a"⟩⟩, ⟨some .roots, ⟨3, "0x2 G b"⟩⟩,
      ⟨some .main, ⟨5, "0x1 B scope"⟩⟩, ⟨some .main, ⟨6, "> 0x2 B next"⟩⟩,
      ⟨some .main, ⟨7, "0x2 B string"⟩⟩] := by
    decide +kernel
  have shuffled : outline shuffledLog = [
      ⟨some .main, ⟨2, "0x1 B scope"⟩⟩, ⟨some .roots, ⟨4, "0x1 B a"⟩⟩,
      ⟨some .weakMaps, ⟨7, "x"⟩⟩, ⟨some .main, ⟨10, "> 0x2 B next"⟩⟩,
      ⟨some .roots, ⟨12, "0x2 G b"⟩⟩, ⟨some .main, ⟨14, "0x2 B string"⟩⟩] := by
    decide +kernel
  have sectioned : Sectioned orderlyLog := by simp [Sectioned, orderly]
  have sectioned' : Sectioned shuffledLog := by simp [Sectioned, shuffled]
  have same : SameSections orderlyLog shuffledLog :=
    ⟨by simp [recordsIn, orderly, shuffled], by simp [recordsIn, orderly, shuffled]⟩
  have accepted : ∃ g, parse "heap.log" orderlyLog = .ok g := by decide +kernel
  refine ⟨sectioned, sectioned', same, ?_⟩
  rcases sections_commute sectioned sectioned' same "heap.log" "other.log" with hok | ⟨⟨f, hf⟩, -⟩
  · exact hok
  · obtain ⟨g, hg⟩ := accepted
    rw [hg] at hf
    cases hf

end Dump

end HeapReplay
