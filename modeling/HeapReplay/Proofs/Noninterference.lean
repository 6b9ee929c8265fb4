import HeapReplay.Proofs.Copying
import HeapReplay.Proofs.Grammar
import HeapReplay.Proofs.Labels
import HeapReplay.Proofs.Sections
import HeapReplay.Proofs.Tables

/-!
# What a script does not tell

Two logs are `Alike` if their root records and their main records correspond one to one: roots have
the same color, nodes the same kind, edges an index in common or names without an index, and one map
moves the addresses, another one renames the names.  All else may differ: root names, node colors,
details, the ignored word of edges, how an address or an index is spelled, comments, empty lines,
weak maps, how the sections interleave, and what follows the trailer.

Alike logs that are accepted have the same script (`reconstruct_eq_of_alike`).  Their main records
are taken in by two readers **side by side**.  `Twins` is what holds between the two after every
record: their nodes are copies, and the names that they know are renamed place by place, so that a
name which is new to one of them is new to the other and gets the same key.

Renaming must be injective for that.  Moving need not be: that both logs are accepted is enough to
tell the nodes apart.
-/

namespace HeapReplay

/-! ## Names -/

/-- Names that differ in the spelling of an index only, or that have none and are renamed. -/
inductive NameAlike (rename : String → String) (name : String) : String → Prop where
  | index {name' : String} {digits digits' : List Char} (form : elementDigits? name = some digits)
      (form' : elementDigits? name' = some digits')
      (same : Nat.ofDigitChars 10 digits' 0 = Nat.ofDigitChars 10 digits 0) :
      NameAlike rename name name'
  | plain (form : elementDigits? name = none) (form' : elementDigits? (rename name) = none) :
      NameAlike rename name (rename name)

/-- **Alike names get the same label** from interners whose names are renamed. -/
lemma NameAlike.intern {rename : String → String} {name name' : String}
    (h : NameAlike rename name name') (injective : rename.Injective) {t t' u u' : Interner}
    {l l' : Label} (entries : t'.entries = t.entries.rename rename)
    (hi : t.intern name = .ok (l, u)) (hi' : t'.intern name' = .ok (l', u')) :
    l' = l ∧ u'.entries = u.entries.rename rename := by
  cases h with
  | index form form' same =>
      simp only [Interner.intern, form] at hi
      simp only [Interner.intern, form'] at hi'
      split_ifs at hi hi'
      obtain ⟨rfl, rfl⟩ := Prod.mk.inj (Except.ok.inj hi)
      obtain ⟨rfl, rfl⟩ := Prod.mk.inj (Except.ok.inj hi')
      exact ⟨congrArg Label.index same, entries⟩
  | plain form form' =>
      have hkey : t'.key? (rename name) = t.key? name := by
        rw [Interner.key?, entries, lookup_rename injective, Interner.key?]
      simp only [Interner.intern, form, Interner.key] at hi
      simp only [Interner.intern, form', Interner.key, hkey] at hi'
      cases hfind : t.key? name with
      | some k =>
          rw [hfind] at hi hi'
          obtain ⟨rfl, rfl⟩ := Prod.mk.inj (Except.ok.inj hi)
          obtain ⟨rfl, rfl⟩ := Prod.mk.inj (Except.ok.inj hi')
          exact ⟨rfl, entries⟩
      | none =>
          rw [hfind] at hi hi'
          obtain ⟨rfl, rfl⟩ := Prod.mk.inj (Except.ok.inj hi)
          obtain ⟨rfl, rfl⟩ := Prod.mk.inj (Except.ok.inj hi')
          have hsize : t'.size = t.size := by
            rw [Interner.size, entries, Table.rename, List.length_map, Interner.size]
          refine ⟨congrArg Label.key hsize, ?_⟩
          simp [Interner.insert, entries, hsize, Table.rename]

namespace Dump

/-! ## Records -/

/-- Root records of one color, one at the address where the other has been moved to. -/
inductive RootAlike (move : Address → Address) (l l' : Line) : Prop where
  | intro {root root' : Root} (read : readRoot (Text.words l.text) = .ok root)
      (read' : readRoot (Text.words l'.text) = .ok root') (color : root'.color = root.color)
      (address : root'.address = move root.address)

/-- Main records that declare nodes of one kind, or edges with alike names. -/
inductive MainAlike (move : Address → Address) (rename : String → String) (l l' : Line) : Prop where
  | node {n n' : NodeRecord} {kind : Kind} (read : readNode (Text.words l.text) = .ok n)
      (read' : readNode (Text.words l'.text) = .ok n')
      (classified : Kind.classify n.tag n.details none = .ok kind)
      (classified' : Kind.classify n'.tag n'.details none = .ok kind)
      (address : n'.address = move n.address)
  | edge {rest rest' : List String} {e e' : EdgeRecord}
      (marked : Text.words l.text = edgeMarker :: rest)
      (marked' : Text.words l'.text = edgeMarker :: rest') (read : readEdge rest = .ok e)
      (read' : readEdge rest' = .ok e') (target : e'.target = move e.target)
      (name : NameAlike rename e.name e'.name)

/-- Logs whose root records and main records correspond one to one. -/
structure Alike (move : Address → Address) (rename : String → String) (text text' : String) :
    Prop where
  roots : List.Forall₂ (RootAlike move) (recordsIn .roots text) (recordsIn .roots text')
  main : List.Forall₂ (MainAlike move rename) (recordsIn .main text) (recordsIn .main text')

lemma readNode_edgeMarker_ne_ok (rest : List String) (n : NodeRecord) :
    readNode (edgeMarker :: rest) ≠ .ok n := by
  have hhead : HeadFault (edgeMarker :: rest) _ := .address Placed.not_isAddress_edgeMarker
  rw [readNode, hhead.readHead]
  intro h
  cases h

namespace Reader

/-- What a record that is read as a node changes. -/
lemma Entered.eq_of_readNode {r r' : Reader} {words : List String} (h : Entered r words r')
    (within : r.within = some .main) {n : NodeRecord} {kind : Kind} (read : readNode words = .ok n)
    (classified : Kind.classify n.tag n.details none = .ok kind) :
    r' = { r with graph := r.graph.withNode n kind, owner := some r.graph.registry.size } := by
  cases h with
  | root hw _ => rw [within] at hw; cases hw
  | weakMap hw => rw [within] at hw; cases hw
  | node _ _ hread hkind _ =>
      obtain rfl := Except.ok.inj (hread.symm.trans read)
      obtain rfl := Except.ok.inj (hkind.symm.trans classified)
      rfl
  | edge _ hmarked _ _ _ => exact absurd (hmarked ▸ read) (readNode_edgeMarker_ne_ok _ n)

/-- What a record that is marked as an edge changes. -/
lemma Entered.exists_of_readEdge {r r' : Reader} {words rest : List String}
    (h : Entered r words r') (within : r.within = some .main) (marked : words = edgeMarker :: rest)
    {e : EdgeRecord} (read : readEdge rest = .ok e) :
    ∃ owner label interner, r.owner = some owner ∧
      r.graph.interner.intern e.name = .ok (label, interner) ∧
      r' = { r with graph := r.graph.withEdge owner { target := e.target, label } interner } := by
  cases h with
  | root hw _ => rw [within] at hw; cases hw
  | weakMap hw => rw [within] at hw; cases hw
  | node _ hunmarked _ _ _ => simp [marked] at hunmarked
  | edge _ hmarked howner hread hi =>
      obtain rfl := (List.cons.inj (marked.symm.trans hmarked)).2
      obtain rfl := Except.ok.inj (hread.symm.trans read)
      exact ⟨_, _, _, howner, hi, rfl⟩

/-! ## Side by side -/

/-- Two readers whose main records were alike. -/
structure Twins (move : Address → Address) (rename : String → String) (m m' : Reader) : Prop where
  within : m.within = some .main ∧ m'.within = some .main
  nodes : List.Forall₂ (Node.IsCopy move) m.graph.nodes m'.graph.nodes
  size : m'.graph.registry.size = m.graph.registry.size
  entries : m'.graph.interner.entries = m.graph.interner.entries.rename rename
  owner : m'.owner = m.owner

variable {move : Address → Address} {rename : String → String} {m m' : Reader}

lemma twins_initial (move : Address → Address) (rename : String → String) :
    Twins move rename { within := some .main } { within := some .main } :=
  ⟨⟨rfl, rfl⟩, .nil, rfl, rfl, rfl⟩

/-- Alike edges of the same node make copies of copies. -/
lemma isCopy_extendEdges {n n' : Node} (h : n.IsCopy move n') (owner : Nat) (e : Edge) :
    (HeapGraph.extendEdges owner e n).IsCopy move
      (HeapGraph.extendEdges owner (e.moved move) n') := by
  rw [HeapGraph.extendEdges, HeapGraph.extendEdges, h.id]
  split_ifs
  · exact ⟨rfl, h.kind, h.address, by simp [h.edges]⟩
  · exact h

/-- **Alike records keep twins twins.** -/
lemma Twins.enter (h : Twins move rename m m') (injective : rename.Injective) {file file' : String}
    {l l' : Line} (alike : MainAlike move rename l l') {r r' : Reader}
    (hr : m.enter file l = .ok r) (hr' : m'.enter file' l' = .ok r') : Twins move rename r r' := by
  have hentered := enter_eq_ok_iff.mp hr
  have hentered' := enter_eq_ok_iff.mp hr'
  cases alike with
  | @node n n' kind read read' classified classified' address =>
      obtain rfl := hentered.eq_of_readNode h.within.1 read classified
      obtain rfl := hentered'.eq_of_readNode h.within.2 read' classified'
      have hcopy : (n.node m.graph.registry.size kind).IsCopy move
          (n'.node m'.graph.registry.size kind) := ⟨h.size, rfl, address, rfl⟩
      refine ⟨h.within, List.rel_append h.nodes (.cons hcopy .nil), ?_, h.entries, ?_⟩
      · have hlength : m'.graph.registry.addresses.length = m.graph.registry.addresses.length :=
          h.size
        simp [HeapGraph.withNode, Registry.size, hlength]
      · exact congrArg some h.size
  | edge marked marked' read read' target name =>
      obtain ⟨owner, label, interner, howner, hi, rfl⟩ :=
        hentered.exists_of_readEdge h.within.1 marked read
      obtain ⟨owner', label', interner', howner', hi', rfl⟩ :=
        hentered'.exists_of_readEdge h.within.2 marked' read'
      obtain rfl : owner' = owner :=
        Option.some.inj (howner'.symm.trans (h.owner.trans howner))
      obtain ⟨rfl, hentries⟩ := name.intern injective h.entries hi hi'
      refine ⟨h.within, ?_, h.size, hentries, h.owner⟩
      -- all nodes are gone through, and the one with the id of the owner is the same in both
      rw [HeapGraph.withEdge, HeapGraph.withEdge, target]
      refine List.forall₂_map_left_iff.mpr (List.forall₂_map_right_iff.mpr ?_)
      exact h.nodes.imp fun _ _ hcopy => isCopy_extendEdges hcopy _ _

/-- Runs through alike records keep twins twins. -/
lemma Twins.run (h : Twins move rename m m') (injective : rename.Injective) {file file' : String}
    {ls ls' : List Line} (alike : List.Forall₂ (MainAlike move rename) ls ls') {r r' : Reader}
    (hr : Progress.run (Reader.enter file) m ls = { state := r })
    (hr' : Progress.run (Reader.enter file') m' ls' = { state := r' }) :
    Twins move rename r r' := by
  induction alike generalizing m m' with
  | nil =>
      obtain rfl : m = r := congrArg Progress.state hr
      obtain rfl : m' = r' := congrArg Progress.state hr'
      exact h
  | @cons l l' ls ls' hl _ ih =>
      obtain ⟨s, hs, hr⟩ := Progress.run_cons_eq_ok.mp hr
      obtain ⟨s', hs', hr'⟩ := Progress.run_cons_eq_ok.mp hr'
      exact ih (h.enter injective hl hs hs') hr hr'

end Reader

/-- The roots of alike records, color by color. -/
lemma map_address_filter_color {move : Address → Address} {ls ls' : List Line}
    (alike : List.Forall₂ (RootAlike move) ls ls') {roots roots' : List Root}
    (read : List.Forall₂ (fun l root => readRoot (Text.words l.text) = .ok root) ls roots)
    (read' : List.Forall₂ (fun l root => readRoot (Text.words l.text) = .ok root) ls' roots')
    (c : Color) :
    (roots'.filter (·.color = c)).map (·.address)
      = (roots.filter (·.color = c)).map fun r => move r.address := by
  induction alike generalizing roots roots' with
  | nil =>
      cases read
      cases read'
      rfl
  | cons hl _ ih =>
      obtain ⟨hread, hread', hcolor, haddress⟩ := hl
      cases read with
      | cons hroot hroots =>
          cases read' with
          | cons hroot' hroots' =>
              obtain rfl := Except.ok.inj (hread.symm.trans hroot)
              obtain rfl := Except.ok.inj (hread'.symm.trans hroot')
              rw [List.filter_cons, List.filter_cons, hcolor]
              split_ifs
              · rw [List.map_cons, List.map_cons, haddress, ih hroots hroots']
              · exact ih hroots hroots'

/-- **The graph of one of two alike logs is a copy of that of the other.** -/
lemma Alike.beginsWith {move : Address → Address} {rename : String → String}
    {file file' text text' : String} (alike : Alike move rename text text')
    (injective : rename.Injective) {g g' : HeapGraph} (h : parse file text = .ok g)
    (h' : parse file' text' = .ok g') : g.BeginsWith move g' := by
  obtain ⟨⟨roots, hroots, hblack, hgray⟩, m, hrun, hnodes⟩ := parts_of_parse h
  obtain ⟨⟨roots', hroots', hblack', hgray'⟩, m', hrun', hnodes'⟩ := parts_of_parse h'
  have htwins := (Reader.twins_initial move rename).run injective alike.main hrun hrun'
  refine ⟨⟨g'.nodes, [], by simp, ?_⟩, ?_, ?_⟩
  · rw [hnodes, hnodes']
    exact htwins.nodes
  · rw [hblack, hblack', map_address_filter_color alike.roots hroots hroots']
  · rw [hgray, hgray', map_address_filter_color alike.roots hroots hroots']

end Dump

/-- **Contents never influence the script.**  Two accepted logs that are alike have the same script,
whatever their files are called and in whatever style it is written. -/
theorem reconstruct_eq_of_alike (style : Script.Style) {file file' text text' : String}
    {move : Address → Address} {rename : String → String}
    (accepted : ∃ g, Dump.parse file text = .ok g)
    (accepted' : ∃ g, Dump.parse file' text' = .ok g) (injective : rename.Injective)
    (alike : Dump.Alike move rename text text') :
    ∃ script, reconstruct style file text = .ok script ∧
      reconstruct style file' text' = .ok script := by
  obtain ⟨g, h⟩ := accepted
  obtain ⟨g', h'⟩ := accepted'
  exact reconstruct_eq_of_beginsWith style h h' (alike.beginsWith injective h h')

/-- A log of a scope with a secret string. -/
def secretLog : String :=
  "# Roots.\n0x1 B r\n==========\n0x1 B scope\n> 0x2 B key\n0x2 B string secret"

/-- The same heap, moved, renamed and told in another way. -/
def disguisedLog : String :=
  "==========\n0xA1 G scope -\n# Roots.\n0xa1 B s\n==========\n#\n> 0x0a2 - keys\n0xa2 G substring"

/-- The secret is not in the script. -/
theorem secretLog_disguised :
    (∃ g, Dump.parse "secret.log" secretLog = .ok g) ∧
      (∃ g, Dump.parse "public.log" disguisedLog = .ok g) ∧
      (fun name => name ++ "s").Injective ∧
      Dump.Alike (· + 0xa0) (fun name => name ++ "s") secretLog disguisedLog ∧
      ∃ script, reconstruct {} "secret.log" secretLog = .ok script ∧
        reconstruct {} "public.log" disguisedLog = .ok script := by
  have accepted : ∃ g, Dump.parse "secret.log" secretLog = .ok g := by decide +kernel
  have accepted' : ∃ g, Dump.parse "public.log" disguisedLog = .ok g := by decide +kernel
  have injective : (fun name => name ++ "s").Injective := by
    intro name name' h
    have hlist := congrArg String.toList h
    rw [String.toList_append, String.toList_append] at hlist
    exact String.toList_injective (List.append_cancel_right hlist)
  have houtline : Dump.outline secretLog = [⟨some .roots, 2, "0x1 B r"⟩,
      ⟨some .main, 4, "0x1 B scope"⟩, ⟨some .main, 5, "> 0x2 B key"⟩,
      ⟨some .main, 6, "0x2 B string secret"⟩] := by
    decide +kernel
  have houtline' : Dump.outline disguisedLog = [⟨some .main, 2, "0xA1 G scope -"⟩,
      ⟨some .roots, 4, "0xa1 B s"⟩, ⟨some .main, 7, "> 0x0a2 - keys"⟩,
      ⟨some .main, 8, "0xa2 G substring"⟩] := by
    decide +kernel
  have root : Dump.RootAlike (· + 0xa0) ⟨2, "0x1 B r"⟩ ⟨4, "0xa1 B s"⟩ :=
    .intro (by decide +kernel : Dump.readRoot _ = .ok ⟨0x1, .black, "r"⟩)
      (by decide +kernel : Dump.readRoot _ = .ok ⟨0xa1, .black, "s"⟩) rfl rfl
  have scope : Dump.MainAlike (· + 0xa0) (fun name => name ++ "s") ⟨4, "0x1 B scope"⟩
      ⟨2, "0xA1 G scope -"⟩ :=
    .node (by decide +kernel : Dump.readNode _ = .ok ⟨0x1, .black, "scope", ""⟩)
      (by decide +kernel : Dump.readNode _ = .ok ⟨0xa1, .gray, "scope", "-"⟩) rfl rfl rfl
  have edge : Dump.MainAlike (· + 0xa0) (fun name => name ++ "s") ⟨5, "> 0x2 B key"⟩
      ⟨7, "> 0x0a2 - keys"⟩ :=
    .edge (by decide +kernel : Text.words _ = Dump.edgeMarker :: ["0x2", "B", "key"])
      (by decide +kernel : Text.words _ = Dump.edgeMarker :: ["0x0a2", "-", "keys"])
      (by decide +kernel : Dump.readEdge _ = .ok ⟨0x2, "key"⟩)
      (by decide +kernel : Dump.readEdge _ = .ok ⟨0xa2, "keys"⟩) rfl
      (.plain (by decide +kernel) (by decide +kernel))
  have string : Dump.MainAlike (· + 0xa0) (fun name => name ++ "s") ⟨6, "0x2 B string secret"⟩
      ⟨8, "0xa2 G substring"⟩ :=
    .node (by decide +kernel : Dump.readNode _ = .ok ⟨0x2, .black, "string", "secret"⟩)
      (by decide +kernel : Dump.readNode _ = .ok ⟨0xa2, .gray, "substring", ""⟩) rfl rfl rfl
  have alike : Dump.Alike (· + 0xa0) (fun name => name ++ "s") secretLog disguisedLog := by
    constructor
    · rw [Dump.recordsIn, Dump.recordsIn, houtline, houtline']
      exact .cons root .nil
    · rw [Dump.recordsIn, Dump.recordsIn, houtline, houtline']
      exact .cons scope (.cons edge (.cons string .nil))
  exact ⟨accepted, accepted', injective, alike,
    reconstruct_eq_of_alike {} accepted accepted' injective alike⟩

end HeapReplay
