import HeapReplay.Proofs.LineReading
import HeapReplay.Proofs.ScriptParts

/-!
# Telling statements from their lines

Lines of different statements differ, in every style that is accepted: this is `map_text_injective`.  It
is more than reading a script can give.  A stem may end in a newline, so the names of an accepted
style need not be identifiers, and a script that is written with them cannot be read; but what was
written can be told from it all the same.

`decode?` tells it.  A line opens with a name, a word or nothing, and the character behind it settles
which form the line has; all further fields end at a character that they cannot hold.
-/

namespace HeapReplay.Script

open HeapReplay.Text

/-- A character that a name of an accepted style can hold. -/
def isNameChar (c : Char) : Bool :=
  isIdentifierPart c || c == '\n'

/-- The name that stands in front, and what follows it. -/
def leadingName (cs : List Char) : String × List Char :=
  (String.ofList (cs.takeWhile isNameChar), cs.dropWhile isNameChar)

/-- The names of the properties between the braces of an object. -/
def leadingNames (cs : List Char) : List String :=
  if cs.isEmpty then [] else (cs.splitOn ',').map fun property => (leadingName property).1

/-- The declaration with the given characters behind its opening word. -/
def decodeDeclaration? (cs : List Char) : Option Statement :=
  match leadingName cs with
  | (x, '=' :: '\x22' :: rest) =>
    (number? rest).map fun (content, _) => .declareString x content
  | (x, '=' :: '\x7b' :: rest) =>
    some (.declareObject x (leadingNames (rest.takeWhile (· ≠ '\x7d'))))
  | (x, _) => some (.declareSymbol x)

/-- The number in brackets and the name that is assigned to its place, from what follows the opening
bracket. -/
def decodePlace? (cs : List Char) : Option (Nat × String) :=
  (number? cs).map fun (n, rest) => (n, (leadingName (rest.drop 2)).1)

/-- The statement that a line was written for. -/
def decode? (cs : List Char) : Option Statement :=
  match leadingName cs with
  | (_, []) => some .blank
  | (_, '(' :: '(' :: _) => some .openFunction
  | (_, '\x7d' :: _) => some .closeFunction
  | (_, ' ' :: rest) => decodeDeclaration? rest
  | (x, '.' :: rest) =>
    let (property, rest) := leadingName rest
    some (.setProperty x property (leadingName (rest.drop 1)).1)
  | (x, '[' :: rest) => (decodePlace? rest).map fun (index, y) => .setElement x index y
  | (x, '(' :: ')' :: '[' :: rest) =>
    (decodePlace? rest).map fun (position, y) => .setRoot x position y
  | _ => none

/-- A name without anything that could end it. -/
def Legible (x : String) : Prop :=
  ∀ c ∈ x.toList, isNameChar c = true

/-- A legible name ends at the first character that no name can hold. -/
lemma leadingName_append {x : String} (h : Legible x) {c : Char} (hc : isNameChar c = false)
    (rest : List Char) : leadingName (x.toList ++ c :: rest) = (x, c :: rest) := by
  rw [leadingName, takeWhile_append_cons h hc, dropWhile_append_cons h hc, String.ofList_toList]

/-- The properties of an object are told apart by the commas between them. -/
lemma leadingNames_intercalate {xs : List String} (h : ∀ x ∈ xs, Legible x) :
    leadingNames ([','].intercalate (xs.map fun x => x.toList ++ [':', '0'])) = xs := by
  cases xs with
  | nil => rfl
  | cons x xs =>
      have hfree : ∀ l ∈ (x :: xs).map fun x => x.toList ++ [':', '0'], ',' ∉ l :=
        not_mem_property h (by decide) (by decide)
      have hne : ([','].intercalate
          ((x :: xs).map fun x => x.toList ++ [':', '0'])).isEmpty = false := by
        cases xs <;> simp [List.intercalate]
      have hnames : ∀ p ∈ x :: xs, ((fun property => (leadingName property).1) ∘
          fun x : String => x.toList ++ [':', '0']) p = p := fun p hp => by
        rw [Function.comp_apply, leadingName_append (h p hp) (by decide)]
      rw [leadingNames, hne, List.splitOn_intercalate _ hfree (by simp), List.map_map,
        List.map_congr_left hnames, List.map_id']
      rfl

/-- The properties of an object are what stands before the closing brace. -/
lemma leadingNames_of_braces {xs : List String} (h : ∀ x ∈ xs, Legible x) :
    leadingNames (([','].intercalate (xs.map fun x => x.toList ++ [':', '0'])
      ++ '\x7d' :: [';']).takeWhile (· ≠ '\x7d')) = xs := by
  have hbrace : ∀ c ∈ [','].intercalate (xs.map fun x => x.toList ++ [':', '0']),
      decide (c ≠ '\x7d') = true := fun c hc => decide_eq_true fun heq =>
    not_mem_properties h (by decide) (by decide) (by decide) (heq ▸ hc)
  rw [takeWhile_append_cons hbrace (by decide), leadingNames_intercalate h]

lemma decodePlace?_append (n : Nat) {y : String} (h : Legible y) :
    decodePlace? (Nat.toDigits 10 n ++ ']' :: '=' :: (y.toList ++ [';'])) = some (n, y) := by
  rw [decodePlace?, number?_append n (by decide)]
  simp [leadingName_append h (by decide : isNameChar ';' = false)]

/-- A declaration opens with a word and a space. -/
lemma leadingName_of_let (rest : List Char) :
    leadingName ("let ".toList ++ rest) = ("let", ' ' :: rest) := by
  have hlet : Legible "let" := List.all_eq_true.mp (by decide)
  exact leadingName_append hlet (by decide) rest

lemma leadingName_of_const (rest : List Char) :
    leadingName ("const ".toList ++ rest) = ("const", ' ' :: rest) := by
  have hconst : Legible "const" := List.all_eq_true.mp (by decide)
  exact leadingName_append hconst (by decide) rest

/-- Behind the opening word of a declaration stands the rest of it. -/
lemma decode?_of_let (rest : List Char) :
    decode? ("let ".toList ++ rest) = decodeDeclaration? rest := by
  rw [decode?, leadingName_of_let]
  rfl

lemma decode?_of_const (rest : List Char) :
    decode? ("const ".toList ++ rest) = decodeDeclaration? rest := by
  rw [decode?, leadingName_of_const]
  rfl

/-- **A line tells the statement that it was written for.** -/
theorem decode?_text {s : Statement} (h : ∀ x ∈ s.names, Legible x) :
    decode? s.text.toList = some s := by
  cases s with
  | openFunction => decide
  | closeFunction => decide
  | blank => decide
  | declareString x content =>
      have hx : Legible x := h x (by simp [Statement.names])
      rw [toList_declareString, decode?_of_let, decodeDeclaration?, leadingName_append hx (by decide)]
      simp [number?_append content (by decide : ('\x22').isDigit = false)]
  | declareSymbol x =>
      have hx : Legible x := h x (by simp [Statement.names])
      rw [toList_declareSymbol, decode?_of_const, decodeDeclaration?, leadingName_append hx (by decide)]
      rfl
  | declareObject x properties =>
      have hx : Legible x := h x (by simp [Statement.names])
      have hp : ∀ p ∈ properties, Legible p := fun p hp => h p (by simp [Statement.names, hp])
      rw [toList_declareObject, decode?_of_let, decodeDeclaration?, leadingName_append hx (by decide)]
      simp only [leadingNames_of_braces hp]
  | setProperty x property y =>
      have hx : Legible x := h x (by simp [Statement.names])
      have hp : Legible property := h property (by simp [Statement.names])
      have hy : Legible y := h y (by simp [Statement.names])
      rw [toList_setProperty, decode?, leadingName_append hx (by decide)]
      simp [leadingName_append hp (by decide : isNameChar '=' = false),
        leadingName_append hy (by decide : isNameChar ';' = false)]
  | setElement x index y =>
      have hx : Legible x := h x (by simp [Statement.names])
      have hy : Legible y := h y (by simp [Statement.names])
      rw [toList_setElement, decode?, leadingName_append hx (by decide)]
      simp [decodePlace?_append index hy]
  | setRoot collector position y =>
      have hx : Legible collector := h collector (by simp [Statement.names])
      have hy : Legible y := h y (by simp [Statement.names])
      rw [toList_setRoot, decode?, leadingName_append hx (by decide)]
      simp [decodePlace?_append position hy]

/-- **Different statements have different lines.** -/
theorem map_text_injective {ss ts : List Statement} (hs : ∀ s ∈ ss, ∀ x ∈ s.names, Legible x)
    (ht : ∀ t ∈ ts, ∀ x ∈ t.names, Legible x)
    (h : ss.map Statement.text = ts.map Statement.text) : ss = ts := by
  have hdecode : ∀ us : List Statement, (∀ u ∈ us, ∀ x ∈ u.names, Legible x) →
      (us.map Statement.text).map (fun line => decode? line.toList) = us.map some := by
    intro us hus
    rw [List.map_map]
    exact List.map_congr_left fun u hu => decode?_text (hus u hu)
  refine List.map_injective_iff.mpr (fun _ _ => Option.some.inj) ?_
  rw [← hdecode ss hs, h, hdecode ts ht]

/-! ## The names of a style -/

/-- An accepted text holds nothing that could end a name. -/
lemma legible_of_endsAsIdentifier {x : String} (h : endsAsIdentifier x.toList = true) :
    Legible x := by
  intro c hc
  rw [endsAsIdentifier, Bool.or_eq_true] at h
  rcases h with h | h
  · rw [isNameChar, all_of_isIdentifier h c hc, Bool.true_or]
  · rw [Bool.and_eq_true, beq_iff_eq] at h
    rw [← List.dropLast_append_getLast? _ h.1, List.mem_append, List.mem_singleton] at hc
    rcases hc with hc | rfl
    · rw [isNameChar, all_of_isIdentifier h.2 c hc, Bool.true_or]
    · rfl

/-- A number behind a stem keeps it legible. -/
lemma Legible.append_toString {stem : String} (h : Legible stem) (n : Nat) :
    Legible (stem ++ toString n) := by
  intro c hc
  rw [String.toList_append] at hc
  rcases List.mem_append.mp hc with hc | hc
  · exact h c hc
  · have hdigit : c.isDigit = true :=
      Nat.isDigit_of_mem_toDigits (by decide) (by decide) (Nat.toList_repr ▸ hc)
    simp [isNameChar, isIdentifierPart, hdigit]

end HeapReplay.Script
