import HeapReplay.Proofs.Copying
import HeapReplay.Proofs.Printing

/-!
# Nodes that are declared last

A log may be continued by a main section that opens with a node.  What was read before is then left
alone: a node goes to the end, an edge belongs to the last node, and that is a new one, so the nodes
of the log stay **an exact prefix** of all nodes (`Trails`).  The new edges may point anywhere and
may bring new names; no old edge and no root points at a new node, for in a log that is accepted on
its own they all have their targets already.

So the longer log has the same script: `reconstruct_append_garbage`.
-/

namespace HeapReplay

/-- A text that goes on after a newline has the lines of both parts. -/
lemma Text.lines_append_newline (text rest : String) :
    Text.lines (text ++ "\n" ++ rest) = Text.lines text ++ Text.lines rest := by
  have hlist : (text ++ "\n" ++ rest).toList = text.toList ++ '\n' :: rest.toList := by
    simp
  rw [Text.lines, Text.splitOn, hlist, List.splitOn_append_cons_self, List.map_append]
  rfl

namespace Dump

/-- The text of a record: it is one line, and neither empty nor a header, a comment or the
trailer. -/
structure IsRecord (text : String) : Prop where
  oneLine : '\n' ∉ text.toList
  nonempty : text ≠ ""
  entry : Entry.ofText text = .record

/-- The lines that a text goes on with are numbered after those before them. -/
lemma exists_numberedLines_eq_append {text text' : String} {rest : List String}
    (h : Text.lines text' = Text.lines text ++ rest) :
    ∃ tail, numberedLines text' = numberedLines text ++ tail ∧
      tail.map Line.text = rest.filter (· ≠ "") := by
  have hnumbered : ∃ tail, numberedLines text' = numberedLines text ++ tail := by
    rw [numberedLines, h, List.zipIdx_append, List.filterMap_append]
    exact ⟨_, rfl⟩
  obtain ⟨tail, htail⟩ := hnumbered
  refine ⟨tail, htail, ?_⟩
  have htexts := map_text_numberedLines text'
  rw [htail, h, List.map_append, List.filter_append, map_text_numberedLines] at htexts
  exact List.append_cancel_left htexts

/-- Only the text of the trailer is one. -/
lemma Entry.eq_of_trailer {text : String} (h : Entry.ofText text = .trailer) : text = "\x7b" := by
  rw [Entry.ofText] at h
  split at h
  · cases h
  · split_ifs at h with _ htext
    exact htext

/-- What follows a text without trailer is read up to its own trailer. -/
lemma takeWhile_untrailed_append {text : String} (untrailed : "\x7b" ∉ Text.lines text)
    (ls : List Line) :
    (numberedLines text ++ ls).takeWhile (·.entry ≠ .trailer)
      = numberedLines text ++ ls.takeWhile (·.entry ≠ .trailer) := by
  refine List.takeWhile_append_of_pos fun l hl => decide_eq_true fun htrailer => untrailed ?_
  have hmem : l.text ∈ (numberedLines text).map Line.text := List.mem_map_of_mem hl
  rw [map_text_numberedLines, Entry.eq_of_trailer htrailer] at hmem
  exact (List.mem_filter.mp hmem).1

/-- A text without trailer is read to its end. -/
lemma body_of_untrailed {text : String} (untrailed : "\x7b" ∉ Text.lines text) :
    body text = numberedLines text := by
  simpa [body] using takeWhile_untrailed_append untrailed []

/-- What is read of a text without trailer that goes on with a header and records. -/
lemma exists_body_eq_append {text : String} (untrailed : "\x7b" ∉ Text.lines text) (s : Section)
    {records : List String} (isRecord : ∀ r ∈ records, IsRecord r) :
    ∃ header ls, body (text ++ "\n" ++ s.header ++ "\n" ++ "\n".intercalate records)
        = body text ++ header :: ls ∧
      header.text = s.header ∧ ls.map Line.text = records := by
  have hlines : (Text.lines ("\n".intercalate records)).filter (· ≠ "") = records := by
    cases records with
    | nil => rfl
    | cons r rs =>
        have hsplit : Text.lines ("\n".intercalate (r :: rs)) = r :: rs :=
          Text.splitOn_intercalate (fun q hq => (isRecord q hq).oneLine) (List.cons_ne_nil _ _)
        rw [hsplit]
        exact List.filter_eq_self.mpr fun q hq => by simpa using (isRecord q hq).nonempty
  have hheader : Text.lines s.header = [s.header] ∧ s.header ≠ "" := by
    cases s <;> decide
  have hall : Text.lines (text ++ "\n" ++ s.header ++ "\n" ++ "\n".intercalate records)
      = Text.lines text ++ s.header :: Text.lines ("\n".intercalate records) := by
    rw [Text.lines_append_newline, Text.lines_append_newline, hheader.1, List.append_assoc]
    rfl
  obtain ⟨tail, hnumbered, htexts⟩ := exists_numberedLines_eq_append hall
  rw [List.filter_cons_of_pos (by simpa using hheader.2), hlines] at htexts
  obtain ⟨header, ls, rfl, hheadertext, hls⟩ := List.map_eq_cons_iff.mp htexts
  have hrecords : ∀ l ∈ header :: ls, l.entry ≠ .trailer := by
    refine List.forall_mem_cons.mpr ⟨?_, fun l hl => ?_⟩
    · simp [Line.entry, hheadertext, Entry.ofText, Section.ofHeader?_header]
    · simp [Line.entry, (isRecord l.text (hls ▸ List.mem_map_of_mem hl)).entry]
  refine ⟨header, ls, ?_, hheadertext, hls⟩
  rw [body, hnumbered, takeWhile_untrailed_append untrailed, body_of_untrailed untrailed,
    List.takeWhile_eq_self_iff.mpr fun l hl => decide_eq_true (hrecords l hl)]

/-! ## Readers that go on -/

namespace Reader

/-- A reader that has added nothing but nodes, and their edges, to what another one had. -/
structure Trails (r : Reader) (garbage : List Node) (s : Reader) : Prop where
  within : s.within = some .main
  sound : s.Sound
  nodes : s.graph.nodes = r.graph.nodes ++ garbage
  blackRoots : s.graph.blackRoots = r.graph.blackRoots
  grayRoots : s.graph.grayRoots = r.graph.grayRoots

variable {r s s' : Reader} {garbage : List Node}

/-- **A record of the main section leaves the old nodes alone**, for a node goes to the end and an
edge belongs to a node that has been added. -/
lemma Trails.enter (h : Trails r garbage s) {words : List String}
    (nodeFirst : garbage = [] → words.head? ≠ some edgeMarker) (hentered : Entered s words s') :
    ∃ garbage', garbage' ≠ [] ∧ Trails r garbage' s' := by
  have hsound := hentered.sound h.sound
  cases hentered with
  | root within _ => rw [h.within] at within; cases within
  | weakMap within => rw [h.within] at within; cases within
  | @node n kind _ _ _ _ _ =>
      refine ⟨garbage ++ [n.node s.graph.registry.size kind], by simp, h.within, hsound, ?_,
        h.blackRoots, h.grayRoots⟩
      rw [HeapGraph.withNode, h.nodes, List.append_assoc]
  | @edge rest owner e label interner _ marked owned _ _ =>
      obtain ⟨ns, n, hnodes, rfl⟩ := h.sound.exists_last owned
      have hne : garbage ≠ [] := fun hnil => nodeFirst hnil (by rw [marked]; rfl)
      obtain ⟨before, last, rfl⟩ := (List.eq_nil_or_concat' garbage).resolve_left hne
      -- the last one of all nodes is the last one of those that have been added
      have hlast := h.nodes
      rw [hnodes, ← List.append_assoc] at hlast
      obtain ⟨rfl, heq⟩ := List.append_inj' hlast rfl
      obtain rfl : n = last := (List.cons.inj heq).1
      refine ⟨before ++ [{ n with edges := n.edges ++ [{ target := e.target, label }] }], by simp,
        h.within, hsound, ?_, h.blackRoots, h.grayRoots⟩
      rw [HeapGraph.withEdge, h.sound.built.indexed.map_extendEdges hnodes, List.append_assoc]

/-- **Records of the main section leave the old nodes alone** if the first one of them declares a
node. -/
lemma Trails.run (h : Trails r garbage s) {file : String} {ls : List Line}
    (isRecord : ∀ l ∈ ls, l.entry = .record)
    (nodeFirst : garbage = [] → ∀ l ∈ ls.head?, (Text.words l.text).head? ≠ some edgeMarker)
    (hrun : Progress.run (step file) s ls = { state := s' }) :
    ∃ garbage', Trails r garbage' s' := by
  induction ls generalizing s garbage with
  | nil =>
      obtain rfl : s = s' := congrArg Progress.state hrun
      exact ⟨garbage, h⟩
  | cons l ls ih =>
      obtain ⟨next, hstep, hrest⟩ := Progress.run_cons_eq_ok.mp hrun
      rw [step, isRecord l (by simp)] at hstep
      obtain ⟨garbage', hne, hnext⟩ :=
        h.enter (fun hnil => nodeFirst hnil l rfl) (enter_eq_ok_iff.mp hstep)
      exact ih hnext (fun k hk => isRecord k (by simp [hk])) (fun hnil => absurd hnil hne) hrest

end Reader

/-- The graph of the longer log begins with the graph of the log. -/
lemma beginsWith_of_append {file text : String} {records : List String} {g g' : HeapGraph}
    (h : parse file text = .ok g) (untrailed : "\x7b" ∉ Text.lines text)
    (isRecord : ∀ r ∈ records, IsRecord r)
    (nodeFirst : ∀ r ∈ records.head?, (Text.words r).head? ≠ some edgeMarker)
    (h' : parse file (text ++ "\n==========\n" ++ "\n".intercalate records) = .ok g') :
    g.BeginsWith id g' := by
  obtain ⟨r, hrun, -, rfl⟩ := parse_eq_ok_iff.mp h
  obtain ⟨r', hrun', -, rfl⟩ := parse_eq_ok_iff.mp h'
  have htext : text ++ "\n==========\n" = text ++ "\n" ++ Section.main.header ++ "\n" := by
    rw [String.append_assoc, String.append_assoc]
    rfl
  obtain ⟨header, ls, hbody, hheader, rfl⟩ := exists_body_eq_append untrailed .main isRecord
  rw [htext, hbody] at hrun'
  obtain ⟨r₀, hrun₀, htail⟩ := Progress.run_append_eq_ok.mp hrun'
  obtain rfl : r = r₀ := congrArg Progress.state (hrun.symm.trans hrun₀)
  obtain ⟨s, hstep, hrest⟩ := Progress.run_cons_eq_ok.mp htail
  have hentry : header.entry = .header .main := by
    rw [Line.entry, hheader, Entry.ofText, Section.ofHeader?_header]
  rw [Reader.step, hentry] at hstep
  obtain rfl := Except.ok.inj hstep
  have hsound : r.Sound := by
    have hstate := Reader.sound_run file (body text)
    rwa [hrun] at hstate
  have hstart : r.Trails [] { r with within := some .main } :=
    ⟨rfl, ⟨hsound.built, hsound.owner⟩, by simp, rfl, rfl⟩
  obtain ⟨garbage, htrails⟩ := hstart.run
    (fun l hl => (isRecord l.text (List.mem_map_of_mem hl)).entry)
    (fun _ l hl => nodeFirst l.text (by rw [List.head?_map, hl]; rfl)) hrest
  have hcopy : ∀ n : Node, n.IsCopy id n := fun n => ⟨rfl, rfl, rfl, (List.map_id n.edges).symm⟩
  exact ⟨⟨r.graph.nodes, garbage, htrails.nodes, List.forall₂_same.mpr fun n _ => hcopy n⟩,
    by rw [htrails.blackRoots]; rfl, by rw [htrails.grayRoots]; rfl⟩

end Dump

/-- **Trailing garbage is inert.**  An accepted log without trailer that goes on with a main section,
of which the first record declares a node, has the script that it had before, if it still is
accepted. -/
theorem reconstruct_append_garbage (style : Script.Style) {file text : String}
    {records : List String} (accepted : ∃ g, Dump.parse file text = .ok g)
    (untrailed : "\x7b" ∉ Text.lines text) (isRecord : ∀ r ∈ records, Dump.IsRecord r)
    (nodeFirst : ∀ r ∈ records.head?, (Text.words r).head? ≠ some Dump.edgeMarker)
    (accepted' : ∃ g, Dump.parse file
      (text ++ "\n==========\n" ++ "\n".intercalate records) = .ok g) :
    ∃ script, reconstruct style file text = .ok script ∧
      reconstruct style file (text ++ "\n==========\n" ++ "\n".intercalate records)
        = .ok script := by
  obtain ⟨g, h⟩ := accepted
  obtain ⟨g', h'⟩ := accepted'
  exact reconstruct_eq_of_beginsWith style h h'
    (Dump.beginsWith_of_append h untrailed isRecord nodeFirst h')

/-- A new string that is held by a new scope, which holds an old node as well. -/
theorem reconstruct_append_scope :
    let text := "# Roots.\n0x1 B r\n==========\n0x1 B scope"
    let records := ["0x2 B scope", "> 0x1 B old", "> 0x3 B new", "0x3 B string"]
    (∃ g, Dump.parse "heap.log" text = .ok g) ∧ "\x7b" ∉ Text.lines text ∧
      (∀ r ∈ records, Dump.IsRecord r) ∧
      (∀ r ∈ records.head?, (Text.words r).head? ≠ some Dump.edgeMarker) ∧
      (∃ g, Dump.parse "heap.log"
        (text ++ "\n==========\n" ++ "\n".intercalate records) = .ok g) ∧
      ∃ script, reconstruct {} "heap.log" text = .ok script ∧
        reconstruct {} "heap.log" (text ++ "\n==========\n" ++ "\n".intercalate records)
          = .ok script := by
  intro text records
  have accepted : ∃ g, Dump.parse "heap.log" text = .ok g := by decide +kernel
  have untrailed : "\x7b" ∉ Text.lines text := by decide +kernel
  have isRecord : ∀ r ∈ records, Dump.IsRecord r := by
    have hrecords : ∀ r ∈ records, '\n' ∉ r.toList ∧ r ≠ "" ∧ Dump.Entry.ofText r = .record := by
      decide +kernel
    exact fun r hr => ⟨(hrecords r hr).1, (hrecords r hr).2.1, (hrecords r hr).2.2⟩
  have nodeFirst : ∀ r ∈ records.head?, (Text.words r).head? ≠ some Dump.edgeMarker := by
    decide +kernel
  have accepted' : ∃ g, Dump.parse "heap.log"
      (text ++ "\n==========\n" ++ "\n".intercalate records) = .ok g := by
    decide +kernel
  exact ⟨accepted, untrailed, isRecord, nodeFirst, accepted',
    reconstruct_append_garbage {} accepted untrailed isRecord nodeFirst accepted'⟩

end HeapReplay
