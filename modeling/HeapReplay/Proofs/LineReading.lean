import HeapReplay.Script.Reading
import HeapReplay.Script.Style
import HeapReplay.Proofs.Sequences

/-!
# Reading back the lines of a script

The text of a statement determines the statement: `read?_text` says that a line is read as the
statement it was written for, if the names in it are identifiers and those of variables are no
reserved words.  A line that calls a reserved word is not read at all (`read?_setRoot_of_reserved`).

Names and numbers are read as far as they reach, so each lemma about them is stated for what is
followed by a character that ends them.  The openings `let` and `const` are told from names by the
space behind them, which no identifier has.
-/

namespace HeapReplay.Script

open HeapReplay.Text

/-! ## Names and numbers -/

/-- An identifier consists of identifier characters. -/
lemma all_of_isIdentifier {cs : List Char} (h : isIdentifier cs = true) :
    ∀ c ∈ cs, isIdentifierPart c = true := by
  cases cs with
  | nil => simp
  | cons c cs =>
      simp only [isIdentifier, Bool.and_eq_true, List.all_eq_true] at h
      intro d hd
      rcases List.mem_cons.mp hd with rfl | hd
      · simp [isIdentifierPart, h.1]
      · exact h.2 d hd

/-- An identifier ends at the first character that is no part of one. -/
lemma identifier?_append {name : String} (h : isIdentifier name.toList = true) {c : Char}
    (hc : isIdentifierPart c = false) (rest : List Char) :
    identifier? (name.toList ++ c :: rest) = some (name, c :: rest) := by
  have hall := all_of_isIdentifier h
  simp only [identifier?, takeWhile_append_cons hall hc, dropWhile_append_cons hall hc, h, if_true,
    String.ofList_toList]

lemma reference?_append {name : String} (h : isIdentifier name.toList = true)
    (hfree : name ∉ reservedWords) {c : Char} (hc : isIdentifierPart c = false)
    (rest : List Char) : reference? (name.toList ++ c :: rest) = some (name, c :: rest) := by
  simp [reference?, identifier?_append h hc, hfree]

/-- A number ends at the first character that is no digit. -/
lemma number?_append (n : Nat) {c : Char} (hc : c.isDigit = false) (rest : List Char) :
    number? (Nat.toDigits 10 n ++ c :: rest) = some (n, c :: rest) := by
  have hall : ∀ d ∈ Nat.toDigits 10 n, d.isDigit = true := fun d hd =>
    Nat.isDigit_of_mem_toDigits (by decide) (by decide) hd
  simp only [number?, takeWhile_append_cons hall hc, dropWhile_append_cons hall hc,
    Numeral.read?_toDigits (by decide : 1 < 10) (by decide), Option.map_some]

lemma lastReference?_append {name : String} (h : isIdentifier name.toList = true)
    (hfree : name ∉ reservedWords) : lastReference? (name.toList ++ [';']) = some name := by
  simp [lastReference?, reference?_append h hfree (by decide : isIdentifierPart ';' = false)]

lemma property?_append {name : String} (h : isIdentifier name.toList = true) :
    property? (name.toList ++ [':', '0']) = some name := by
  simp [property?, identifier?_append h (by decide : isIdentifierPart ':' = false)]

/-- A property of an object holds nothing but its name, a colon and a zero. -/
lemma not_mem_property {p : Char → Bool} {names : List String}
    (h : ∀ name ∈ names, ∀ c ∈ name.toList, p c = true) {c : Char} (hc : p c = false)
    (other : c ∉ [':', '0']) :
    ∀ l ∈ names.map fun name => name.toList ++ [':', '0'], c ∉ l := by
  intro l hl hin
  obtain ⟨name, hname, rfl⟩ := List.mem_map.mp hl
  rcases List.mem_append.mp hin with hin | hin
  · rw [h name hname c hin] at hc
    cases hc
  · exact other hin

/-- Between properties stand commas. -/
lemma not_mem_properties {p : Char → Bool} {names : List String}
    (h : ∀ name ∈ names, ∀ c ∈ name.toList, p c = true) {c : Char} (hc : p c = false)
    (other : c ∉ [':', '0']) (comma : c ≠ ',') :
    c ∉ [','].intercalate (names.map fun name => name.toList ++ [':', '0']) := by
  intro hin
  rcases mem_intercalate hin with hin | ⟨l, hl, hin⟩
  · exact comma (List.mem_singleton.mp hin)
  · exact not_mem_property h hc other l hl hin

/-- The properties of an object are told apart by the commas between them. -/
lemma properties?_intercalate {names : List String}
    (h : ∀ name ∈ names, isIdentifier name.toList = true) :
    properties? ([','].intercalate (names.map fun name => name.toList ++ [':', '0']))
      = some names := by
  cases names with
  | nil => rfl
  | cons name names =>
      have hfree : ∀ l ∈ (name :: names).map fun name => name.toList ++ [':', '0'], ',' ∉ l :=
        not_mem_property (fun p hp => all_of_isIdentifier (h p hp)) (by decide) (by decide)
      have hread : ((name :: names).map fun name => name.toList ++ [':', '0']).mapM property?
          = some (name :: names) := by
        have hsome : ∀ p ∈ name :: names, (property? ∘ fun name => name.toList ++ [':', '0']) p
            = pure (id p) := fun p hp => property?_append (h p hp)
        rw [List.mapM_map, mapM_eq_pure hsome, List.map_id]
        rfl
      have hne : ([','].intercalate
          ((name :: names).map fun name => name.toList ++ [':', '0'])).isEmpty = false := by
        cases names <;> simp [List.intercalate]
      rw [properties?, hne, List.splitOn_intercalate _ hfree (by simp), hread]
      rfl

/-! ## Statements -/

namespace Statement

/-- The names that a statement is written with. -/
def names : Statement → List String
  | openFunction | closeFunction | blank => []
  | declareString x _ | declareSymbol x => [x]
  | declareObject x properties => x :: properties
  | setProperty x property y => [x, property, y]
  | setElement x _ y => [x, y]
  | setRoot collector _ y => [collector, y]

/-- The names that a statement has for variables and functions. -/
def references : Statement → List String
  | openFunction | closeFunction | blank => []
  | declareString x _ | declareSymbol x | declareObject x _ => [x]
  | setProperty x _ y | setElement x _ y => [x, y]
  | setRoot collector _ y => [collector, y]

/-- A statement whose names the language accepts where they stand. -/
structure WellNamed (s : Statement) : Prop where
  identifiers : ∀ x ∈ s.names, isIdentifier x.toList = true
  unreserved : ∀ x ∈ s.references, x ∉ reservedWords

end Statement

/-! ## The characters of a line -/

lemma toList_declareString (x : String) (content : Nat) :
    (Statement.declareString x content).text.toList = "let ".toList ++
      (x.toList ++ '=' :: '\x22' :: (Nat.toDigits 10 content ++ '\x22' :: [';'])) := by
  simp [Statement.text]

lemma toList_declareSymbol (x : String) :
    (Statement.declareSymbol x).text.toList = "const ".toList ++
      (x.toList ++ '=' :: "Symbol();".toList) := by
  simp [Statement.text]

lemma toList_declareObject (x : String) (properties : List String) :
    (Statement.declareObject x properties).text.toList = "let ".toList ++
      (x.toList ++ '=' :: '\x7b' ::
        ([','].intercalate (properties.map fun p => p.toList ++ [':', '0'])
          ++ '\x7d' :: [';'])) := by
  simp [Statement.text, Function.comp_def]

lemma toList_setProperty (x property y : String) :
    (Statement.setProperty x property y).text.toList =
      x.toList ++ '.' :: (property.toList ++ '=' :: (y.toList ++ [';'])) := by
  simp [Statement.text]

lemma toList_setElement (x : String) (index : Nat) (y : String) :
    (Statement.setElement x index y).text.toList =
      x.toList ++ '[' :: (Nat.toDigits 10 index ++ ']' :: '=' :: (y.toList ++ [';'])) := by
  simp [Statement.text]

lemma toList_setRoot (collector : String) (position : Nat) (y : String) :
    (Statement.setRoot collector position y).text.toList =
      collector.toList ++ '(' :: ')' :: '[' ::
        (Nat.toDigits 10 position ++ ']' :: '=' :: (y.toList ++ [';'])) := by
  simp [Statement.text]

/-! ## Reading -/

/-- An identifier does not begin with a word and a space. -/
lemma expect?_name_eq_none (word : List Char) (hword : ∀ c ∈ word, isIdentifierPart c = true)
    {name : String} (h : isIdentifier name.toList = true) {c : Char}
    (hc : isIdentifierPart c = false) (hspace : c ≠ ' ') (rest : List Char) :
    expect? (word ++ [' ']) (name.toList ++ c :: rest) = none := by
  have hprefix : (word ++ [' ']).isPrefixOf (name.toList ++ c :: rest) = false := by
    refine Bool.eq_false_iff.mpr fun hp => ?_
    obtain ⟨t, ht⟩ := List.isPrefixOf_iff_prefix.mp hp
    have hend := congrArg (List.dropWhile isIdentifierPart) ht
    rw [List.dropWhile_append_of_pos (all_of_isIdentifier h), List.append_assoc,
      List.dropWhile_append_of_pos hword, List.dropWhile_cons_of_neg (by simp [hc]),
      List.cons_append, List.dropWhile_cons_of_neg (by decide)] at hend
    exact hspace (List.cons.inj hend).1.symm
  rw [expect?, hprefix]
  rfl

/-- A line that opens with a name is read as an assignment. -/
lemma read?_of_name {line name : String} (h : isIdentifier name.toList = true) {c : Char}
    (hc : isIdentifierPart c = false) (hspace : c ≠ ' ') {rest : List Char}
    (hline : line.toList = name.toList ++ c :: rest) :
    Statement.read? line = assignment? (name.toList ++ c :: rest) := by
  have hne : ∀ s : String, (s.toList.head?.all fun d => !isIdentifierStart d) = true →
      line ≠ s := by
    rintro s hs rfl
    cases hn : name.toList with
    | nil => simp [hn, isIdentifier] at h
    | cons d ds =>
        simp only [hn, isIdentifier, Bool.and_eq_true] at h
        simp [hline, hn, h.1] at hs
  have hlet : expect? "let ".toList (name.toList ++ c :: rest) = none :=
    expect?_name_eq_none "let".toList (List.all_eq_true.mp (by decide)) h hc hspace rest
  have hconst : expect? "const ".toList (name.toList ++ c :: rest) = none :=
    expect?_name_eq_none "const".toList (List.all_eq_true.mp (by decide)) h hc hspace rest
  rw [Statement.read?, if_neg (hne _ (by decide)), if_neg (hne _ (by decide)),
    if_neg (hne _ (by decide)), hline, hlet, hconst]

@[simp] lemma expect?_append (fixed rest : List Char) :
    expect? fixed (fixed ++ rest) = some rest := by
  simp [expect?]

lemma read?_of_let {line : String} {rest : List Char}
    (hline : line.toList = "let ".toList ++ rest) :
    Statement.read? line = declaration? rest := by
  have hne : ∀ s : String, s.toList.head? ≠ some 'l' → line ≠ s := by
    rintro s hs rfl
    exact hs (by rw [hline]; rfl)
  rw [Statement.read?, if_neg (hne _ (by decide)), if_neg (hne _ (by decide)),
    if_neg (hne _ (by decide)), hline, expect?_append]

lemma read?_of_const {line : String} {rest : List Char}
    (hline : line.toList = "const ".toList ++ rest) :
    Statement.read? line = symbolDeclaration? rest := by
  have hne : ∀ s : String, s.toList.head? ≠ some 'c' → line ≠ s := by
    rintro s hs rfl
    exact hs (by rw [hline]; rfl)
  have hlet : expect? "let ".toList ("const ".toList ++ rest) = none := rfl
  rw [Statement.read?, if_neg (hne _ (by decide)), if_neg (hne _ (by decide)),
    if_neg (hne _ (by decide)), hline, hlet, expect?_append]

/-- A number in brackets, and the name assigned to it. -/
lemma place?_append (n : Nat) {target : String} (h : isIdentifier target.toList = true)
    (hfree : target ∉ reservedWords) :
    place? ('[' :: (Nat.toDigits 10 n ++ ']' :: '=' :: (target.toList ++ [';'])))
      = some (n, target) := by
  have hopen : expect? ['['] ('[' :: (Nat.toDigits 10 n ++ ']' :: '=' :: (target.toList ++ [';'])))
      = some _ := expect?_append ['['] _
  have hclose : expect? [']', '='] (']' :: '=' :: (target.toList ++ [';'])) = some _ :=
    expect?_append [']', '='] _
  simp [place?, hopen, number?_append n (by decide : (']').isDigit = false), hclose,
    lastReference?_append h hfree]

/-- **A line is read as the statement it was written for.** -/
theorem read?_text {s : Statement} (h : s.WellNamed) : Statement.read? s.text = some s := by
  obtain ⟨hident, hfree⟩ := h
  cases s with
  | openFunction => decide
  | closeFunction => decide
  | blank => decide
  | declareString x content =>
      have hx : isIdentifier x.toList = true := hident x (by simp [Statement.names])
      have hx' : x ∉ reservedWords := hfree x (by simp [Statement.references])
      rw [read?_of_let (toList_declareString x content), declaration?,
        reference?_append hx hx' (by decide)]
      simp [number?_append content (by decide : ('\x22').isDigit = false)]
  | declareSymbol x =>
      have hx : isIdentifier x.toList = true := hident x (by simp [Statement.names])
      have hx' : x ∉ reservedWords := hfree x (by simp [Statement.references])
      rw [read?_of_const (toList_declareSymbol x), symbolDeclaration?,
        reference?_append hx hx' (by decide)]
      rfl
  | declareObject x properties =>
      have hx : isIdentifier x.toList = true := hident x (by simp [Statement.names])
      have hx' : x ∉ reservedWords := hfree x (by simp [Statement.references])
      have hp : ∀ p ∈ properties, isIdentifier p.toList = true := fun p hp =>
        hident p (by simp [Statement.names, hp])
      have hbrace : ∀ c ∈ [','].intercalate (properties.map fun p => p.toList ++ [':', '0']),
          decide (c ≠ '\x7d') = true := fun c hc => decide_eq_true fun heq =>
        not_mem_properties (fun p hin => all_of_isIdentifier (hp p hin)) (by decide) (by decide)
          (by decide) (heq ▸ hc)
      rw [read?_of_let (toList_declareObject x properties), declaration?,
        reference?_append hx hx' (by decide)]
      simp only [Option.bind_eq_bind, Option.bind_some, List.takeWhile_append_of_pos hbrace,
        List.dropWhile_append_of_pos hbrace]
      simp [properties?_intercalate hp]
  | setProperty x property y =>
      have hx : isIdentifier x.toList = true := hident x (by simp [Statement.names])
      have hp : isIdentifier property.toList = true := hident property (by simp [Statement.names])
      have hy : isIdentifier y.toList = true := hident y (by simp [Statement.names])
      have hx' : x ∉ reservedWords := hfree x (by simp [Statement.references])
      have hy' : y ∉ reservedWords := hfree y (by simp [Statement.references])
      have hequals : expect? ['='] ('=' :: (y.toList ++ [';'])) = some _ :=
        expect?_append ['='] _
      rw [read?_of_name hx (by decide) (by decide) (toList_setProperty x property y), assignment?,
        reference?_append hx hx' (by decide)]
      simp [identifier?_append hp (by decide : isIdentifierPart '=' = false), hequals,
        lastReference?_append hy hy']
  | setElement x index y =>
      have hx : isIdentifier x.toList = true := hident x (by simp [Statement.names])
      have hy : isIdentifier y.toList = true := hident y (by simp [Statement.names])
      have hx' : x ∉ reservedWords := hfree x (by simp [Statement.references])
      have hy' : y ∉ reservedWords := hfree y (by simp [Statement.references])
      rw [read?_of_name hx (by decide) (by decide) (toList_setElement x index y), assignment?,
        reference?_append hx hx' (by decide)]
      simp [place?_append index hy hy']
  | setRoot collector position y =>
      have hx : isIdentifier collector.toList = true := hident collector (by simp [Statement.names])
      have hy : isIdentifier y.toList = true := hident y (by simp [Statement.names])
      have hx' : collector ∉ reservedWords := hfree collector (by simp [Statement.references])
      have hy' : y ∉ reservedWords := hfree y (by simp [Statement.references])
      rw [read?_of_name hx (by decide) (by decide) (toList_setRoot collector position y), assignment?,
        reference?_append hx hx' (by decide)]
      simp [place?_append position hy hy']

/-- A line that calls a reserved word is no statement. -/
lemma read?_setRoot_of_reserved {collector : String} (h : isIdentifier collector.toList = true)
    (hreserved : collector ∈ reservedWords) (position : Nat) (y : String) :
    Statement.read? (Statement.setRoot collector position y).text = none := by
  rw [read?_of_name h (by decide) (by decide) (toList_setRoot collector position y), assignment?,
    reference?, identifier?_append h (by decide)]
  simp [hreserved]

end HeapReplay.Script
