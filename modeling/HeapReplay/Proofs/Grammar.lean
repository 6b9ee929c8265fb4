import HeapReplay.Dump.Outline
import HeapReplay.Dump.Reader
import Mathlib.Logic.Basic
import Mathlib.Tactic.SplitIfs
import Mathlib.Tactic.Lemma

/-!
# The grammar of a heap log

Which logs are accepted is said here of the records of a log and their words, without a reader.
`Placed.Ok` holds of a record that is in order after the records before it; `Placed.Fault` says
what is reported of one that is not: the leftmost thing that is wrong with it.  Every record has
one of the two properties (`Placed.ok_or_fault`).

What a log refers to is a list as well: the black roots, the gray roots and the edges, each in the
order of their records.  Nothing here depends on where the nodes of a log stand in a graph.
-/

namespace HeapReplay.Dump

/-! ## Words -/

/-- A digit of an address literal. -/
def IsHexDigit (c : Char) : Prop :=
  ('0' ≤ c ∧ c ≤ '9') ∨ ('a' ≤ c ∧ c ≤ 'f') ∨ ('A' ≤ c ∧ c ≤ 'F')

/-- An address literal: `0x` and at least one digit. -/
def IsAddress (word : String) : Prop :=
  ∃ digits, digits ≠ [] ∧ (∀ c ∈ digits, IsHexDigit c) ∧ word.toList = '0' :: 'x' :: digits

/-- The letter of a color. -/
def IsColor (word : String) : Prop :=
  word = "B" ∨ word = "G"

lemma isHexDigit_iff {c : Char} : IsHexDigit c ↔ ∃ d, Numeral.digit? 16 c = some d := by
  have hnine : c ≤ '9' → c.toNat - 48 < 16 := fun h => by
    have hle : c.toNat ≤ '9'.toNat := h
    have hval : '9'.toNat = 57 := rfl
    omega
  have hsmall : c ≤ 'f' → c.toNat - 87 < 16 := fun h => by
    have hle : c.toNat ≤ 'f'.toNat := h
    have hval : 'f'.toNat = 102 := rfl
    omega
  have hcapital : c ≤ 'F' → c.toNat - 55 < 16 := fun h => by
    have hle : c.toNat ≤ 'F'.toNat := h
    have hval : 'F'.toNat = 70 := rfl
    omega
  rw [Numeral.digit?, Numeral.hexValue?, IsHexDigit]
  split_ifs with h1 h2 h3
  · simp [h1, hnine h1.2]
  · simp [h2, hsmall h2.2]
  · simp [h3, hcapital h3.2]
  · simp [h1, h2, h3]

lemma mapM_digit?_iff {digits : List Char} :
    (∀ c ∈ digits, IsHexDigit c) ↔ ∃ ds, digits.mapM (Numeral.digit? 16) = some ds := by
  induction digits with
  | nil => simp
  | cons c digits ih =>
      rw [List.forall_mem_cons, ih, isHexDigit_iff, List.mapM_cons]
      constructor
      · rintro ⟨⟨d, hd⟩, ds, hds⟩
        exact ⟨d :: ds, by rw [hd, hds]; rfl⟩
      · rintro ⟨ds, hds⟩
        cases hd : Numeral.digit? 16 c with
        | none => rw [hd] at hds; cases hds
        | some d =>
            cases hrest : digits.mapM (Numeral.digit? 16) with
            | none => rw [hd, hrest] at hds; cases hds
            | some rest => exact ⟨⟨d, rfl⟩, rest, rfl⟩

/-- The address literals are the words that are read as addresses. -/
lemma isAddress_iff {word : String} : IsAddress word ↔ ∃ a, Address.parse? word = some a := by
  constructor
  · rintro ⟨digits, hne, hdigits, hword⟩
    obtain ⟨ds, hds⟩ := mapM_digit?_iff.mp hdigits
    have hread : Numeral.read? 16 digits = some (Numeral.ofDigits 16 ds) := by
      rw [Numeral.read?, hds, if_neg (by simpa using hne)]
      rfl
    exact ⟨_, by rw [Address.parse?, hword]; simp only [hread]; rfl⟩
  · rintro ⟨a, ha⟩
    rw [Address.parse?] at ha
    split at ha
    · rename_i digits hword
      rw [Numeral.read?] at ha
      split_ifs at ha with hempty
      · cases ha
      · cases hds : digits.mapM (Numeral.digit? 16) with
        | none => rw [hds] at ha; cases ha
        | some ds =>
            exact ⟨digits, by simpa using hempty, mapM_digit?_iff.mpr ⟨ds, hds⟩, hword⟩
    · cases ha

lemma isColor_iff {word : String} : IsColor word ↔ ∃ c, Color.ofLetter? word = some c := by
  constructor
  · rintro (rfl | rfl)
    · exact ⟨.black, rfl⟩
    · exact ⟨.gray, rfl⟩
  · rintro ⟨c, hc⟩
    rw [Color.ofLetter?.eq_def] at hc
    split at hc
    · exact Or.inl rfl
    · exact Or.inr rfl
    · cases hc

/-- What is wrong with the address and the color that a record begins with. -/
inductive HeadFault : List String → LineProblem → Prop where
  | address {word : String} {rest : List String} (bad : ¬ IsAddress word) :
      HeadFault (word :: rest) (.badAddress word)
  | noColor {word : String} (address : IsAddress word) :
      HeadFault [word] (.missingField "color")
  | color {word letter : String} {rest : List String} (address : IsAddress word)
      (bad : ¬ IsColor letter) : HeadFault (word :: letter :: rest) (.badColor letter)

/-- A record begins with an address and a color, or something is wrong with its head. -/
lemma head_or_fault {words : List String} (h : words ≠ []) :
    (∃ address color rest, words = address :: color :: rest ∧ IsAddress address ∧ IsColor color) ∨
      ∃ problem, HeadFault words problem := by
  obtain ⟨word, rest, rfl⟩ := List.exists_cons_of_ne_nil h
  by_cases haddress : IsAddress word
  · cases rest with
    | nil => exact Or.inr ⟨_, .noColor haddress⟩
    | cons letter rest =>
        by_cases hcolor : IsColor letter
        · exact Or.inl ⟨word, letter, rest, rfl, haddress, hcolor⟩
        · exact Or.inr ⟨_, .color haddress hcolor⟩
  · exact Or.inr ⟨_, .address haddress⟩

lemma readAddress_of_isAddress {word : String} (h : IsAddress word) :
    ∃ a, Address.parse? word = some a ∧ readAddress word = .ok a := by
  obtain ⟨a, ha⟩ := isAddress_iff.mp h
  exact ⟨a, ha, by rw [readAddress, ha]⟩

lemma readAddress_of_not_isAddress {word : String} (h : ¬ IsAddress word) :
    readAddress word = .error (.badAddress word) := by
  cases ha : Address.parse? word with
  | none => rw [readAddress, ha]
  | some a => exact absurd (isAddress_iff.mpr ⟨a, ha⟩) h

lemma readHead_of_isAddress {address color : String} (rest : List String)
    (haddress : IsAddress address) (hcolor : IsColor color) :
    ∃ a c, Address.parse? address = some a ∧ Color.ofLetter? color = some c ∧
      readHead (address :: color :: rest) = .ok (a, c, rest) := by
  obtain ⟨a, ha, hread⟩ := readAddress_of_isAddress haddress
  obtain ⟨c, hc⟩ := isColor_iff.mp hcolor
  refine ⟨a, c, ha, hc, ?_⟩
  simp only [readHead, List.headD_cons, List.tail_cons, hread, readColor, hc]
  rfl

/-- A node with a tag is read, whatever the tag and the details say. -/
lemma readNode_of_isAddress {address color : String} (tag : String) (details : List String)
    (haddress : IsAddress address) (hcolor : IsColor color) :
    ∃ a c, Address.parse? address = some a ∧
      readNode (address :: color :: tag :: details)
        = .ok { address := a, color := c, tag, details := Text.unwords details } := by
  obtain ⟨a, c, ha, -, hread⟩ := readHead_of_isAddress (tag :: details) haddress hcolor
  refine ⟨a, c, ha, ?_⟩
  rw [readNode, hread]
  rfl

lemma HeadFault.readHead {words : List String} {problem : LineProblem}
    (h : HeadFault words problem) : readHead words = .error problem := by
  cases h with
  | address bad =>
      simp only [Dump.readHead, List.headD_cons, readAddress_of_not_isAddress bad]
      rfl
  | noColor address =>
      obtain ⟨a, -, hread⟩ := readAddress_of_isAddress address
      simp only [Dump.readHead, List.headD_cons, hread]
      rfl
  | @color word letter rest address bad =>
      obtain ⟨a, -, hread⟩ := readAddress_of_isAddress address
      have hcolor : readColor letter = .error (.badColor letter) := by
        cases hc : Color.ofLetter? letter with
        | none => rw [readColor, hc]
        | some c => exact absurd (isColor_iff.mpr ⟨c, hc⟩) bad
      simp only [Dump.readHead, List.headD_cons, List.tail_cons, hread, hcolor]
      rfl

/-! ## Records -/

namespace Placed

/-- The words of a record. -/
def words (p : Placed) : List String :=
  Text.words p.line.text

/-- The first word of a record. -/
def first (p : Placed) : String :=
  p.words.headD ""

/-- A record of the main section that begins with the marker of edges. -/
def IsEdge (p : Placed) : Prop :=
  p.within = some .main ∧ p.first = edgeMarker

/-- Any other record of the main section. -/
def IsNode (p : Placed) : Prop :=
  p.within = some .main ∧ p.first ≠ edgeMarker

instance (p : Placed) : Decidable p.IsEdge :=
  inferInstanceAs (Decidable (_ ∧ _))

instance (p : Placed) : Decidable p.IsNode :=
  inferInstanceAs (Decidable (_ ∧ _))

/-- The name of an edge: what is left of its words after the one that is ignored. -/
def edgeName (p : Placed) : String :=
  Text.unwords (p.words.drop 3)

/-- The address that a node is declared at. -/
def declares? (p : Placed) : Option Address :=
  if p.IsNode then Address.parse? p.first else none

/-- The address that a root of the given color refers to. -/
def rootTarget? (c : Color) (p : Placed) : Option Address :=
  if p.within = some .roots ∧ Color.ofLetter? (p.words.tail.headD "") = some c then
    Address.parse? p.first
  else none

/-- The address that an edge leads to. -/
def edgeTarget? (p : Placed) : Option Address :=
  if p.IsEdge then Address.parse? (p.words.tail.headD "") else none

lemma declares?_eq_none {p : Placed} (h : p.within ≠ some .main) : p.declares? = none :=
  if_neg fun hnode => h hnode.1

lemma edgeTarget?_eq_none {p : Placed} (h : p.within ≠ some .main) : p.edgeTarget? = none :=
  if_neg fun hedge => h hedge.1

lemma rootTarget?_eq_none {p : Placed} (h : p.within ≠ some .roots) (c : Color) :
    p.rootTarget? c = none :=
  if_neg fun hroot => h hroot.1

/-- A record that is in order after the records before it. -/
inductive Ok (earlier : List Placed) (p : Placed) : Prop where
  | root {address color : String} {rest : List String} (within : p.within = some .roots)
      (words : p.words = address :: color :: rest) (isAddress : IsAddress address)
      (isColor : IsColor color)
  | weakMap (within : p.within = some .weakMaps)
  | edge {target : String} {rest : List String} (within : p.within = some .main)
      (words : p.words = edgeMarker :: target :: rest) (isAddress : IsAddress target)
      (owned : ∃ q ∈ earlier, q.IsNode)
  | node {address color tag : String} {details : List String} {kind : Kind}
      (within : p.within = some .main)
      (words : p.words = address :: color :: tag :: details) (isAddress : IsAddress address)
      (isColor : IsColor color)
      (classified : Kind.classify tag (Text.unwords details) none = .ok kind)
      (fresh : ∀ q ∈ earlier, q.IsNode → Address.parse? q.first ≠ Address.parse? address)

/-- What is reported of a record that is not in order: what is wrong with it from the left. -/
inductive Fault (file : String) (earlier : List Placed) (p : Placed) : Failure → Prop where
  | outsideSection (within : p.within = none) :
      Fault file earlier p (p.line.malformed file .outsideSection)
  | rootHead {problem : LineProblem} (within : p.within = some .roots)
      (head : HeadFault p.words problem) : Fault file earlier p (p.line.malformed file problem)
  | noOwner (edge : p.IsEdge) (unowned : ∀ q ∈ earlier, ¬ q.IsNode) :
      Fault file earlier p (p.line.malformed file .unexpectedEdge)
  | noTarget (within : p.within = some .main) (words : p.words = [edgeMarker])
      (owned : ∃ q ∈ earlier, q.IsNode) :
      Fault file earlier p (p.line.malformed file (.missingField "edge target"))
  | badTarget {target : String} {rest : List String} (within : p.within = some .main)
      (words : p.words = edgeMarker :: target :: rest) (owned : ∃ q ∈ earlier, q.IsNode)
      (bad : ¬ IsAddress target) :
      Fault file earlier p (p.line.malformed file (.badAddress target))
  | nodeHead {problem : LineProblem} (node : p.IsNode) (head : HeadFault p.words problem) :
      Fault file earlier p (p.line.malformed file problem)
  | noTag {address color : String} (node : p.IsNode) (words : p.words = [address, color])
      (isAddress : IsAddress address) (isColor : IsColor color) :
      Fault file earlier p (p.line.malformed file (.missingField "type tag"))
  | unknownKind {address color tag : String} {details : List String} (node : p.IsNode)
      (words : p.words = address :: color :: tag :: details) (isAddress : IsAddress address)
      (isColor : IsColor color)
      (unknown : ∀ kind, Kind.classify tag (Text.unwords details) none ≠ .ok kind) :
      Fault file earlier p
        (.fault (.unknownKind tag (Text.unwords details) (some (p.line.location file))))
  | duplicate {address color tag : String} {details : List String} {kind : Kind} {a : Address}
      {q : Placed} (node : p.IsNode)
      (words : p.words = address :: color :: tag :: details) (isColor : IsColor color)
      (classified : Kind.classify tag (Text.unwords details) none = .ok kind)
      (spelled : Address.parse? address = some a) (before : q ∈ earlier) (other : q.IsNode)
      (same : Address.parse? q.first = some a) :
      Fault file earlier p (.fault (.duplicateAddress a (some (p.line.location file))))

lemma exists_words (p : Placed) : ∃ rest, p.words = p.first :: rest := by
  have hne : p.words ≠ [] := Text.splitOn_ne_nil ' ' p.line.text
  obtain ⟨word, rest, h⟩ := List.exists_cons_of_ne_nil hne
  exact ⟨rest, by rw [first, h]; rfl⟩

lemma first_of_words {p : Placed} {word : String} {rest : List String}
    (h : p.words = word :: rest) : p.first = word := by
  rw [first, h]
  rfl

lemma not_isAddress_edgeMarker : ¬ IsAddress edgeMarker := by
  rintro ⟨digits, -, -, h⟩
  cases h

/-- A record that begins with an address is no edge. -/
lemma isNode_of_isAddress {p : Placed} (within : p.within = some .main)
    (h : IsAddress p.first) : p.IsNode :=
  ⟨within, fun heq => not_isAddress_edgeMarker (heq ▸ h)⟩

/-- **A record is in order, or it has a fault.** -/
theorem ok_or_fault (file : String) (earlier : List Placed) (p : Placed) :
    p.Ok earlier ∨ ∃ failure, p.Fault file earlier failure := by
  have hne : p.words ≠ [] := Text.splitOn_ne_nil ' ' p.line.text
  rcases hwithin : p.within with _ | s
  · exact Or.inr ⟨_, .outsideSection hwithin⟩
  · cases s with
    | roots =>
        rcases head_or_fault hne with ⟨address, color, rest, hwords, ha, hc⟩ | ⟨problem, hhead⟩
        · exact Or.inl (.root hwithin hwords ha hc)
        · exact Or.inr ⟨_, .rootHead hwithin hhead⟩
    | weakMaps => exact Or.inl (.weakMap hwithin)
    | main =>
        by_cases hedge : p.first = edgeMarker
        · by_cases howned : ∃ q ∈ earlier, q.IsNode
          · obtain ⟨rest, hwords⟩ := p.exists_words
            rw [hedge] at hwords
            cases rest with
            | nil => exact Or.inr ⟨_, .noTarget hwithin hwords howned⟩
            | cons target rest =>
                by_cases ha : IsAddress target
                · exact Or.inl (.edge hwithin hwords ha howned)
                · exact Or.inr ⟨_, .badTarget hwithin hwords howned ha⟩
          · exact Or.inr ⟨_, .noOwner ⟨hwithin, hedge⟩ fun q hq hnode => howned ⟨q, hq, hnode⟩⟩
        · have hnode : p.IsNode := ⟨hwithin, hedge⟩
          rcases head_or_fault hne with ⟨address, color, rest, hwords, ha, hc⟩ | ⟨problem, hhead⟩
          · cases rest with
            | nil => exact Or.inr ⟨_, .noTag hnode hwords ha hc⟩
            | cons tag details =>
                by_cases hkind : ∃ kind, Kind.classify tag (Text.unwords details) none = .ok kind
                · obtain ⟨kind, hkind⟩ := hkind
                  by_cases hfresh : ∀ q ∈ earlier, q.IsNode →
                      Address.parse? q.first ≠ Address.parse? address
                  · exact Or.inl (.node hwithin hwords ha hc hkind hfresh)
                  · simp only [not_forall, not_not] at hfresh
                    obtain ⟨q, hq, hother, hsame⟩ := hfresh
                    obtain ⟨a, hspelled⟩ := isAddress_iff.mp ha
                    exact Or.inr ⟨_, .duplicate hnode hwords hc hkind hspelled hq hother
                      (hsame.trans hspelled)⟩
                · exact Or.inr ⟨_, .unknownKind hnode hwords ha hc fun kind h =>
                    hkind ⟨kind, h⟩⟩
          · exact Or.inr ⟨_, .nodeHead hnode hhead⟩

end Placed

/-- Records that are all in order, each after the ones before it. -/
def InOrder (records : List Placed) : Prop :=
  ∀ before p after, records = before ++ p :: after → p.Ok before

lemma inOrder_nil : InOrder [] := by
  intro before p after h
  cases before <;> cases h

lemma InOrder.snoc {records : List Placed} (h : InOrder records) {p : Placed}
    (hp : p.Ok records) : InOrder (records ++ [p]) := by
  intro before q after heq
  rcases List.eq_nil_or_concat after with rfl | ⟨after, last, rfl⟩
  · obtain ⟨rfl, hlast⟩ := List.append_inj' heq rfl
    obtain rfl := (List.cons.inj hlast).1
    exact hp
  · rw [List.concat_eq_append, ← List.cons_append, ← List.append_assoc] at heq
    exact h before q after (List.append_inj' heq rfl).1

lemma InOrder.of_append {records rest : List Placed} (h : InOrder (records ++ rest)) :
    InOrder records := by
  intro before p after heq
  exact h before p (after ++ rest) (by rw [heq]; simp)

/-- The addresses of the nodes among some records. -/
def declared (records : List Placed) : List Address :=
  records.filterMap Placed.declares?

/-- What some records refer to: the black roots, the gray roots and the edges. -/
def references (records : List Placed) : List (Address × String) :=
  (records.filterMap (Placed.rootTarget? .black)
      ++ records.filterMap (Placed.rootTarget? .gray)).map (·, "root")
    ++ (records.filterMap Placed.edgeTarget?).map (·, "edge")

/-- Edges have no element index of too many digits. -/
def ShortIndices (records : List Placed) : Prop :=
  ∀ p ∈ records, p.IsEdge → ∀ digits, elementDigits? p.edgeName = some digits →
    digits.length ≤ Failure.maxIndexDigits

/-- That indices are short can be found by looking at all records. -/
lemma shortIndices_of_all {records : List Placed} (h : ∀ p ∈ records,
    (elementDigits? p.edgeName).all (·.length ≤ Failure.maxIndexDigits) = true) :
    ShortIndices records := by
  intro p hp _ digits hd
  simpa [hd] using h p hp

/-- An edge whose element index has the given number of digits, which is too large. -/
def Placed.Overlong (p : Placed) (digits : Nat) : Prop :=
  p.IsEdge ∧ Failure.maxIndexDigits < digits ∧
    ∃ ds, elementDigits? p.edgeName = some ds ∧ ds.length = digits

/-- The first record that is not in order, and what is reported of it. -/
def FirstFault (file : String) (records : List Placed) (failure : Failure) : Prop :=
  ∃ before p after, records = before ++ p :: after ∧ InOrder before ∧
    p.Fault file before failure

/-- The first record that cannot be taken in is in order but for its element index. -/
def FirstOverlong (records : List Placed) (digits : Nat) : Prop :=
  ∃ before p after, records = before ++ p :: after ∧ InOrder before ∧ ShortIndices before ∧
    p.Ok before ∧ p.Overlong digits

/-- The first reference to an address that no node is declared at, and how it is reported. -/
def FirstDangling (records : List Placed) (failure : Failure) : Prop :=
  ∃ before a context after, references records = before ++ (a, context) :: after ∧
    (∀ ref ∈ before, ref.1 ∈ declared records) ∧ a ∉ declared records ∧
    failure = .fault (.unresolvedAddress a context none)

end HeapReplay.Dump
