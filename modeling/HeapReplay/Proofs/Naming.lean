import HeapReplay.Proofs.Garbage

/-!
# Names and lines

Every statement of an emission is one that its style can write, whatever the graph is like and
wherever the emission breaks off (`each_emission`).  So its names are the four names of the style, or
the first two of them with a number behind.

**A style with plain names writes plain lines**: no name reaches beyond its line, every statement is
one line, and cutting the text of a script at its newlines gives back the lines that it was made of
(`plain_names_plain_lines`).  Two things are left to be said.  Checking a style overlooks a newline
at the end of a name, so newlines have to be ruled out apart.  And the text of a script without any
line is an empty line, not an empty text.  `overlooked_newline_breaks_lines` shows both.
-/

namespace HeapReplay.Script

/-- A name of ASCII letters, digits, underscores and dollar signs that does not begin with a digit. -/
structure PlainName (x : String) : Prop where
  chars : ∀ c ∈ x.toList, 'a' ≤ c ∧ c ≤ 'z' ∨ 'A' ≤ c ∧ c ≤ 'Z' ∨ '0' ≤ c ∧ c ≤ '9' ∨
    c = '_' ∨ c = '$'
  start : ∃ c cs, x.toList = c :: cs ∧ ¬ ('0' ≤ c ∧ c ≤ '9')

/-- The characters that an identifier begins with. -/
lemma isIdentifierStart_iff {c : Char} : Text.isIdentifierStart c = true ↔
    ('A' ≤ c ∧ c ≤ 'Z' ∨ 'a' ≤ c ∧ c ≤ 'z') ∨ c = '_' ∨ c = '$' := by
  have hupper : c.isUpper = true ↔ 'A' ≤ c ∧ c ≤ 'Z' := decide_eq_true_iff
  have hlower : c.isLower = true ↔ 'a' ≤ c ∧ c ≤ 'z' := by
    show (decide ('a' ≤ c) && decide (c ≤ 'z')) = true ↔ _
    rw [Bool.and_eq_true, decide_eq_true_eq, decide_eq_true_eq]
  have halpha : c.isAlpha = (c.isUpper || c.isLower) := rfl
  rw [Text.isIdentifierStart, halpha, Bool.or_eq_true, Bool.or_eq_true, Bool.or_eq_true, hupper,
    hlower, beq_iff_eq, beq_iff_eq, or_assoc]

lemma plainName_of_isIdentifier {x : String} (h : Text.isIdentifier x.toList = true) :
    PlainName x := by
  constructor
  case chars =>
    intro c hc
    have hpart := all_of_isIdentifier h c hc
    rw [Text.isIdentifierPart, Bool.or_eq_true, isIdentifierStart_iff] at hpart
    rcases hpart with ((hupper | hlower) | hunderscore | hdollar) | hdigit
    · exact Or.inr (Or.inl hupper)
    · exact Or.inl hlower
    · exact Or.inr (Or.inr (Or.inr (Or.inl hunderscore)))
    · exact Or.inr (Or.inr (Or.inr (Or.inr hdollar)))
    · rw [Char.isDigit, Bool.and_eq_true, decide_eq_true_eq, decide_eq_true_eq] at hdigit
      exact Or.inr (Or.inr (Or.inl hdigit))
  case start =>
    cases hx : x.toList with
    | nil =>
        rw [hx] at h
        cases h
    | cons c cs =>
        refine ⟨c, cs, rfl, fun hdigit => ?_⟩
        rw [hx, Text.isIdentifier, Bool.and_eq_true, isIdentifierStart_iff] at h
        have hle : c.toNat ≤ 57 := hdigit.2
        rcases h.1 with (⟨hupper, -⟩ | ⟨hlower, -⟩) | rfl | rfl
        · have hge : 65 ≤ c.toNat := hupper
          omega
        · have hge : 97 ≤ c.toNat := hlower
          omega
        · exact absurd hle (by decide)
        · exact absurd hdigit.1 (by decide)

lemma PlainName.newline_not_mem {x : String} (h : PlainName x) : '\n' ∉ x.toList := fun hin =>
  absurd (h.chars _ hin) (by decide)

/-! ## The statements of an emission -/

namespace Emission

/-- Whether each statement of an emission is of some sort. -/
def Each (p : Statement → Prop) (e : Emission) : Prop :=
  ∀ s ∈ e.statements, p s

variable {p : Statement → Prop}

lemma each_empty (failure : Option Failure) : Each p { failure } := by
  intro s hs
  cases hs

lemma each_singleton {s : Statement} (hs : p s) : Each p (ofList [s]) := by
  intro t ht
  rwa [List.mem_singleton.mp ht]

lemma Each.append {a b : Emission} (ha : Each p a) (hb : Each p b) : Each p (a ++ b) := by
  obtain ⟨statements, _ | failure⟩ := a
  · intro s hs
    rcases List.mem_append.mp hs with hs | hs
    · exact ha s hs
    · exact hb s hs
  · exact ha

lemma each_concat {es : List Emission} (h : ∀ e ∈ es, Each p e) : Each p (concat es) := by
  induction es with
  | nil => exact each_empty none
  | cons e es ih =>
      obtain ⟨he, hes⟩ := List.forall_mem_cons.mp h
      exact he.append (ih hes)

lemma each_layout {s : Statement} (hs : p s) (wanted : Bool) : Each p (layout wanted s) := by
  cases wanted with
  | false => exact each_empty none
  | true => exact each_singleton hs

end Emission

open Emission

variable {style : Style} {g : HeapGraph}

lemma each_declaration (n : Node) : Each (Inner style) (.ofExcept (declaration style g n)) := by
  rw [declaration]
  split
  · exact each_singleton (.string n.id n.id)
  · exact each_singleton (.symbol n.id)
  · cases includedEdges g n with
    | error failure => exact each_empty (some failure)
    | ok edges => exact each_singleton (.object n.id _)

lemma each_assignment (n : Node) (e : Edge) :
    Each (Inner style) (.ofExcept (assignment style g n e)) := by
  rw [assignment]
  cases g.resolve e.target "edge" with
  | error failure => exact each_empty (some failure)
  | ok target =>
      show Each _ (.ofList (if target.includable then _ else []))
      split_ifs
      · exact each_singleton (.edge n.id e.label target.id)
      · exact each_empty none

lemma each_collected {collector : String}
    (h : ∀ i id, Inner style (.setRoot collector i (style.nodeName id))) (position : Nat)
    (roots : List Root) : Each (Inner style) (collected style g collector position roots) := by
  induction roots generalizing position with
  | nil => exact each_empty none
  | cons r roots ih =>
      rw [collected]
      cases g.resolve r.address "root" with
      | error failure => exact each_empty (some failure)
      | ok target =>
          dsimp only
          split_ifs
          · exact (each_singleton (h position target.id)).append (ih (position + 1))
          · exact ih position

lemma each_body (style : Style) (g : HeapGraph) : Each (Inner style) (body style g) := by
  have hspacing : Each (Inner style) (layout style.spaced .blank) := each_layout .blank _
  have hdeclarations : Each (Inner style) (declarations style g) :=
    each_concat (List.forall_mem_map.mpr fun n _ => each_declaration n)
  have hassignments : Each (Inner style) (assignments style g) :=
    each_concat (List.forall_mem_map.mpr fun n _ =>
      each_concat (List.forall_mem_map.mpr fun e _ => each_assignment n e))
  have hroots : Each (Inner style) (rootAssignments style g) :=
    (each_collected .blackRoot 0 g.blackRoots).append (each_collected .grayRoot 0 g.grayRoots)
  exact hdeclarations.append hspacing |>.append hassignments |>.append hspacing |>.append hroots

/-- **An emission holds nothing but what its style can write**, of whatever graph and however far it
reaches. -/
lemma each_emission (style : Style) (g : HeapGraph) : Each (Written style) (emission style g) := by
  have hbody : Each (Written style) (body style g) := fun s hs => .inner (each_body style g s hs)
  exact (each_layout .opening style.wrapped).append hbody
    |>.append (each_layout .closing style.wrapped)

/-! ## Lines -/

lemma newline_not_mem_toDigits (n : Nat) : '\n' ∉ Nat.toDigits 10 n := fun h =>
  absurd (Nat.isDigit_of_mem_toDigits (by decide) (by decide) h) (by decide)

/-- A statement is one line if its names are. -/
lemma newline_not_mem_text {s : Statement} (h : ∀ x ∈ s.names, '\n' ∉ x.toList) :
    '\n' ∉ s.text.toList := by
  cases s with
  | openFunction => decide
  | closeFunction => decide
  | blank => decide
  | declareString x content =>
      have hx := h x (by simp [Statement.names])
      rw [toList_declareString]
      simp [hx, newline_not_mem_toDigits]
  | declareSymbol x =>
      have hx := h x (by simp [Statement.names])
      rw [toList_declareSymbol]
      simp [hx]
  | declareObject x properties =>
      have hx := h x (by simp [Statement.names])
      have hp : ∀ p ∈ properties, ∀ c ∈ p.toList, (c != '\n') = true := by
        intro p hp c hc
        refine bne_iff_ne.mpr fun heq => h p (by simp [Statement.names, hp]) ?_
        exact heq ▸ hc
      have hproperties := not_mem_properties hp (by decide : ('\n' != '\n') = false) (by decide)
        (by decide)
      rw [toList_declareObject]
      simp [hx, hproperties]
  | setProperty x property y =>
      have hx := h x (by simp [Statement.names])
      have hp := h property (by simp [Statement.names])
      have hy := h y (by simp [Statement.names])
      rw [toList_setProperty]
      simp [hx, hp, hy]
  | setElement x index y =>
      have hx := h x (by simp [Statement.names])
      have hy := h y (by simp [Statement.names])
      rw [toList_setElement]
      simp [hx, hy, newline_not_mem_toDigits]
  | setRoot collector position y =>
      have hc := h collector (by simp [Statement.names])
      have hy := h y (by simp [Statement.names])
      rw [toList_setRoot]
      simp [hc, hy, newline_not_mem_toDigits]

/-- Joined lines are cut where they were joined, and behind the last newline stands nothing. -/
lemma lines_joinLines {lines : List String} (single : ∀ line ∈ lines, '\n' ∉ line.toList) :
    Text.lines (joinLines lines) = (if lines = [] then [""] else lines) ++ [""] := by
  have hcut : Text.lines ("\n".intercalate lines) = if lines = [] then [""] else lines := by
    split_ifs with hnil
    · rw [hnil]
      rfl
    · exact Text.splitOn_intercalate single hnil
  have hjoin : joinLines lines = "\n".intercalate lines ++ "\n" ++ "" :=
    String.append_empty.symm
  rw [hjoin, Text.lines_append_newline, hcut]
  rfl

/-! ## Styles without newlines -/

/-- **A style with plain names writes plain lines.**  If the names of a style are accepted and none
of them holds a newline, they are plain, and so is every name that is made of them with a number.
Then the script of a graph, wherever it breaks off, has no newline in any of its lines; and if it
reaches its end, its text is cut at the newlines into the lines and an empty piece behind them.  A
script without lines counts as one empty line there. -/
theorem plain_names_plain_lines (accepted : style.check = .ok style)
    (oneLine : ∀ role, '\n' ∉ (style.name role).toList) :
    (∀ role, PlainName (style.name role)) ∧ (∀ id, PlainName (style.nodeName id)) ∧
      (∀ key, PlainName (style.propertyName key)) ∧
      ∀ g : HeapGraph, (∀ line ∈ (emission style g).lines, '\n' ∉ line.toList) ∧
        ((emission style g).failure = none → ∃ text, render style g = .ok text ∧
          Text.lines text = (if (emission style g).lines = [] then [""]
            else (emission style g).lines) ++ [""]) := by
  have hident := isIdentifier_of_check accepted oneLine
  have hrole : ∀ role, PlainName (style.name role) := fun role =>
    plainName_of_isIdentifier (hident role)
  have hnode : ∀ id, PlainName (style.nodeName id) := fun id =>
    plainName_of_isIdentifier (isIdentifier_append_toString (hident .node) id)
  have hproperty : ∀ key, PlainName (style.propertyName key) := fun key =>
    plainName_of_isIdentifier (isIdentifier_append_toString (hident .property) key)
  refine ⟨hrole, hnode, hproperty, fun g => ?_⟩
  have hlines : ∀ line ∈ (emission style g).lines, '\n' ∉ line.toList := by
    refine List.forall_mem_map.mpr fun s hs => newline_not_mem_text fun x hx => ?_
    have hplain : PlainName x := (each_emission style g s hs).name hnode hproperty
      (hrole .blackCollector) (hrole .grayCollector) x hx
    exact hplain.newline_not_mem
  refine ⟨hlines, fun written => ⟨joinLines (emission style g).lines, ?_, lines_joinLines hlines⟩⟩
  rw [render, written]

/-- A style with odd names and without any layout. -/
def bareStyle : Style :=
  { nodeStem := "_", propertyStem := "$$9", blackCollector := "$", grayCollector := "B0",
    wrapped := false, spaced := false }

lemma oneLine_bareStyle (role : NameRole) : '\n' ∉ (bareStyle.name role).toList := by
  cases role <;> decide

/-- Its names and the lines that are written with them are plain. -/
theorem bareStyle_plain :
    let g := loopedHeap.withMarks [0, 2]
    bareStyle.check = .ok bareStyle ∧ (∀ role, '\n' ∉ (bareStyle.name role).toList) ∧
      PlainName (bareStyle.propertyName 12) ∧ bareStyle.propertyName 12 = "$$912" ∧
      (emission bareStyle g).lines = ["let _0=\x7b$$90:0\x7d;", "let _2=\"2\";", "_0.$$90=_0;",
        "_0[7]=_3;", "$()[0]=_0;", "$()[1]=_0;"] ∧
      ∃ text, render bareStyle g = .ok text ∧
        Text.lines text = (emission bareStyle g).lines ++ [""] := by
  intro g
  have accepted : bareStyle.check = .ok bareStyle := by decide
  obtain ⟨-, -, hproperty, hlines⟩ := plain_names_plain_lines accepted oneLine_bareStyle
  have hsome : (emission bareStyle g).lines ≠ [] := by decide +kernel
  obtain ⟨text, hrender, hcut⟩ := (hlines g).2 (by decide +kernel)
  rw [if_neg hsome] at hcut
  exact ⟨accepted, oneLine_bareStyle, hproperty 12, by decide +kernel, by decide +kernel, text,
    hrender, hcut⟩

/-- **A newline behind a name is overlooked**, and then it is in the lines.  Without a line there is
still the empty line. -/
theorem overlooked_newline_breaks_lines :
    let style : Style := { nodeStem := "n\n" }
    let g := loopedHeap.withMarks [2]
    (style.check = .ok style ∧ ¬ PlainName (style.name .node) ∧ ¬ PlainName (style.nodeName 2) ∧
      (emission style g).failure = none ∧
      (∃ line ∈ (emission style g).lines, '\n' ∈ line.toList) ∧
      ∃ text, render style g = .ok text ∧ Text.lines text ≠ (emission style g).lines ++ [""]) ∧
    bareStyle.check = .ok bareStyle ∧ (∀ role, PlainName (bareStyle.name role)) ∧
      (emission bareStyle {}).failure = none ∧ render bareStyle {} = .ok "\n" ∧
      Text.lines "\n" ≠ (emission bareStyle {}).lines ++ [""] := by
  intro style g
  have accepted : bareStyle.check = .ok bareStyle := by decide
  have hplain : ∀ role, PlainName (bareStyle.name role) := fun role =>
    plainName_of_isIdentifier (isIdentifier_of_check accepted oneLine_bareStyle role)
  refine ⟨⟨by decide, ?_, ?_, by decide +kernel, by decide +kernel, ?_⟩, accepted, hplain,
    by decide +kernel, by decide +kernel, by decide +kernel⟩
  · exact fun h => h.newline_not_mem (by decide)
  · exact fun h => h.newline_not_mem (by decide +kernel)
  · exact ⟨joinLines (emission style g).lines, by decide +kernel, by decide +kernel⟩

end HeapReplay.Script
