import HeapReplay.Dump.Printer
import HeapReplay.Script.Emission
import HeapReplay.Proofs.Sequences
import Mathlib.Data.List.Induction
import Mathlib.Data.List.Nodup

/-!
# Names and labels

An edge is printed with a name for its label, and a reader makes a label of the name.  The two
undo each other if the reader's interner is as far as the printed edges are: it holds the names of
the keys among them and no others (`intern_nameOf`).  That works because keys are numbered in the
order in which they first occur, so the names which are known at any time are the first ones of the
list.

The other way round, an interner that starts empty numbers keys in just this way
(`distinctKeys_intern`).
-/

namespace HeapReplay

/-! ## Element names -/

/-- The name of an array element, with nothing behind the bracket. -/
def IsElementName (name : String) : Prop :=
  ∃ digits, digits ≠ [] ∧ (∀ c ∈ digits, c.isDigit = true) ∧
    name.toList = elementOpening ++ digits ++ [']']

/-- The digits of an element name are what stands between the brackets. -/
lemma elementDigits?_eq_some_iff {name : String} {digits : List Char} :
    elementDigits? name = some digits ↔ digits ≠ [] ∧ (∀ c ∈ digits, c.isDigit = true) ∧
      ∃ closing, (closing = [']'] ∨ closing = [']', '\n']) ∧
        name.toList = elementOpening ++ (digits ++ closing) := by
  constructor
  · intro h
    simp only [elementDigits?] at h
    split_ifs at h with hform
    simp only [Bool.and_eq_true, Bool.or_eq_true, Bool.not_eq_true', beq_iff_eq] at hform
    obtain ⟨⟨hopening, hne⟩, hclosing⟩ := hform
    obtain ⟨inner, hinner⟩ := List.isPrefixOf_iff_prefix.mp hopening
    have hdrop : name.toList.drop elementOpening.length = inner := by
      rw [← hinner, List.drop_left]
    rw [hdrop] at h hne hclosing
    obtain rfl := Option.some.inj h
    refine ⟨by simpa using hne, List.all_eq_true.mp List.all_takeWhile, _, hclosing, ?_⟩
    rw [List.takeWhile_append_dropWhile, hinner]
  · rintro ⟨hne, hdigits, closing, hclosing, hname⟩
    have hhead : ∃ rest, closing = ']' :: rest := by
      rcases hclosing with rfl | rfl
      · exact ⟨_, rfl⟩
      · exact ⟨_, rfl⟩
    obtain ⟨rest, rfl⟩ := hhead
    have htake : (digits ++ ']' :: rest).takeWhile Char.isDigit = digits :=
      takeWhile_append_cons hdigits (by decide) rest
    have hdrop : (digits ++ ']' :: rest).dropWhile Char.isDigit = ']' :: rest :=
      dropWhile_append_cons hdigits (by decide) rest
    have hopening : elementOpening.isPrefixOf name.toList = true := by
      rw [List.isPrefixOf_iff_prefix, hname]
      exact List.prefix_append _ _
    have hnonempty : digits.isEmpty = false := by simpa using hne
    simp only [elementDigits?, hopening]
    rw [hname, List.drop_left, htake, hdrop, hnonempty]
    rcases hclosing with heq | heq <;> simp [heq]

/-- Within one line, the names without digits are those that are no element names. -/
lemma elementDigits?_eq_none_iff {name : String} (h : '\n' ∉ name.toList) :
    elementDigits? name = none ↔ ¬ IsElementName name := by
  rw [Option.eq_none_iff_forall_ne_some]
  constructor
  · rintro hnone ⟨digits, hne, hdigits, hname⟩
    refine hnone digits (elementDigits?_eq_some_iff.mpr ⟨hne, hdigits, [']'], Or.inl rfl, ?_⟩)
    rw [hname, List.append_assoc]
  · intro hno digits hsome
    obtain ⟨hne, hdigits, closing, rfl | rfl, hname⟩ := elementDigits?_eq_some_iff.mp hsome
    · exact hno ⟨digits, hne, hdigits, by rw [hname, List.append_assoc]⟩
    · exact h (by rw [hname]; simp)

/-- The name of an element stays on its line. -/
lemma newline_not_mem_element {digits : List Char} (h : ∀ c ∈ digits, c.isDigit = true) :
    '\n' ∉ elementOpening ++ (digits ++ [']']) := by
  rw [List.mem_append, List.mem_append]
  rintro (hin | hin | hin)
  · exact absurd hin (by decide)
  · exact absurd (h _ hin) (by decide)
  · exact absurd hin (by decide)

/-- The name of the first element of an array, whose index is written with some zeros. -/
def zerosName (count : Nat) : String :=
  String.ofList (elementOpening ++ (List.replicate count '0' ++ [']']))

lemma elementDigits?_zerosName {count : Nat} (h : count ≠ 0) :
    elementDigits? (zerosName count) = some (List.replicate count '0') := by
  rw [elementDigits?_eq_some_iff]
  refine ⟨by simpa using h, fun c hc => ?_, [']'], Or.inl rfl, String.toList_ofList⟩
  rw [List.eq_of_mem_replicate hc]
  rfl

lemma toList_nameOf_index (t : Interner) (i : Nat) :
    (t.nameOf (.index i)).toList = elementOpening ++ (Nat.toDigits 10 i ++ [']']) := by
  have hdigits : (toString i).toList = Nat.toDigits 10 i := by
    rw [Nat.toString_eq_repr, Nat.toList_repr]
  have hname : t.nameOf (.index i) = "objectElements[" ++ toString i ++ "]" := rfl
  rw [hname, String.toList_append, String.toList_append, hdigits, List.append_assoc]
  rfl

/-- The printed name of an index holds its digits. -/
lemma elementDigits?_nameOf_index (t : Interner) (i : Nat) :
    elementDigits? (t.nameOf (.index i)) = some (Nat.toDigits 10 i) :=
  elementDigits?_eq_some_iff.mpr ⟨Nat.toDigits_ne_nil,
    fun _ hc => Nat.isDigit_of_mem_toDigits (by decide) (by decide) hc,
    [']'], Or.inl rfl, toList_nameOf_index t i⟩

/-- Printed names stay on their line if the interned ones do. -/
lemma newline_not_mem_nameOf {t : Interner} (h : ∀ name ∈ t.names, '\n' ∉ name.toList)
    (l : Label) : '\n' ∉ (t.nameOf l).toList := by
  cases l with
  | index i =>
      rw [toList_nameOf_index]
      exact newline_not_mem_element fun _ hc =>
        Nat.isDigit_of_mem_toDigits (by decide) (by decide) hc
  | key k =>
      have hname : t.nameOf (.key k) = t.names[k]?.getD "" := rfl
      rw [hname]
      cases hget : t.names[k]? with
      | none => exact List.not_mem_nil
      | some name => exact h name (List.mem_of_getElem? hget)

/-- Leading zeros are all that the digits of a number lose. -/
lemma length_toDigits_ofDigitChars {digits : List Char} (hne : digits ≠ [])
    (hdigits : ∀ c ∈ digits, c.isDigit = true) :
    (Nat.toDigits 10 (Nat.ofDigitChars 10 digits 0)).length ≤ digits.length := by
  rw [Nat.length_toDigits_le_iff (by decide) (List.length_pos_iff.mpr hne)]
  clear hne
  induction digits using List.reverseRecOn with
  | nil => simp
  | append_singleton digits c ih =>
      have hlt := ih fun d hd => hdigits d (List.mem_append_left _ hd)
      have hc : c.isDigit = true := hdigits c (by simp)
      have hdigit : c.toNat - '0'.toNat < 10 := by
        rw [Char.isDigit, Bool.and_eq_true, decide_eq_true_eq, decide_eq_true_eq] at hc
        have hle : c.toNat ≤ '9'.toNat := hc.2
        have hzero : '0'.toNat = 48 := rfl
        have hnine : '9'.toNat = 57 := rfl
        omega
      rw [Nat.ofDigitChars_append, Nat.ofDigitChars_cons, Nat.ofDigitChars_nil,
        List.length_append, List.length_singleton, Nat.pow_succ]
      omega

/-! ## Keys in the order of their first occurrence -/

/-- The key that a label is. -/
def Label.key? : Label → Option Nat
  | .index _ => none
  | .key id => some id

namespace Script

lemma distinctKeys_append_singleton (labels : List Label) (l : Label) :
    distinctKeys (labels ++ [l]) = match l with
      | .index _ => distinctKeys labels
      | .key id =>
        if id ∈ distinctKeys labels then distinctKeys labels else distinctKeys labels ++ [id] := by
  cases l <;> simp [distinctKeys]

/-- The distinct keys are all keys. -/
lemma mem_distinctKeys {labels : List Label} {id : Nat} :
    id ∈ distinctKeys labels ↔ .key id ∈ labels := by
  induction labels using List.reverseRecOn with
  | nil => simp [distinctKeys]
  | append_singleton labels l ih =>
      rw [distinctKeys_append_singleton]
      cases l with
      | index i => simp [ih]
      | key k =>
          simp only [List.mem_append, List.mem_singleton, Label.key.injEq]
          split_ifs with hk
          · rw [ih]
            constructor
            · exact Or.inl
            · rintro (h | rfl)
              · exact h
              · exact ih.mp hk
          · rw [List.mem_append, ih, List.mem_singleton]

/-- The distinct keys are the first occurrences of keys. -/
lemma distinctKeys_eq_eraseDups (labels : List Label) :
    distinctKeys labels = (labels.filterMap Label.key?).eraseDups := by
  induction labels using List.reverseRecOn with
  | nil => rfl
  | append_singleton labels l ih =>
      rw [distinctKeys_append_singleton, List.filterMap_append]
      cases l with
      | index i =>
          have hnone : [Label.index i].filterMap Label.key? = [] := rfl
          rw [hnone, List.append_nil]
          exact ih
      | key k =>
          have hone : [Label.key k].filterMap Label.key? = [k] := rfl
          simp only [hone, eraseDups_append_singleton, ih, List.mem_eraseDups]

/-- Further labels add keys at the end. -/
lemma distinctKeys_prefix_append (labels labels' : List Label) :
    distinctKeys labels <+: distinctKeys (labels ++ labels') := by
  induction labels' using List.reverseRecOn with
  | nil => simp
  | append_singleton labels' l ih =>
      rw [← List.append_assoc, distinctKeys_append_singleton]
      cases l with
      | index i => exact ih
      | key k =>
          dsimp only
          split_ifs
          · exact ih
          · exact ih.trans (List.prefix_append _ _)

/-- If the keys are numbered as they first occur, so are those of the first labels. -/
lemma distinctKeys_eq_range {labels labels' : List Label} {n : Nat}
    (h : distinctKeys (labels ++ labels') = List.range n) :
    distinctKeys labels = List.range (distinctKeys labels).length ∧
      (distinctKeys labels).length ≤ n := by
  have hbegins := distinctKeys_prefix_append labels labels'
  rw [h] at hbegins
  have hlen : (distinctKeys labels).length ≤ n := by simpa using hbegins.length_le
  refine ⟨?_, hlen⟩
  have htake := List.prefix_iff_eq_take.mp hbegins
  rw [List.take_range, Nat.min_eq_left hlen] at htake
  exact htake

end Script

namespace Interner

open Script

/-- The interner that knows the first names only. -/
def upTo (t : Interner) (k : Nat) : Interner :=
  ofNames (t.names.take k)

/-- What a name gets from the interner of some names. -/
lemma key_ofNames (names : List String) (name : String) :
    (ofNames names).key name = match names.idxOf? name with
      | some k => (k, ofNames names)
      | none => (names.length, ofNames (names ++ [name])) := by
  have hkey : (ofNames names).key? name = names.idxOf? name := by
    rw [(Numbered.ofNames names).key?_eq_idxOf?, names_ofNames]
  have hsize : (ofNames names).size = names.length := by rw [← length_names, names_ofNames]
  rw [key, hkey]
  cases names.idxOf? name with
  | some k => rfl
  | none => simp only [hsize, insert_ofNames]

/-- **A printed name is read as its label** by an interner that knows the keys printed so far. -/
lemma intern_nameOf {t : Interner} {before after : List Label} {l : Label}
    (hnodup : t.names.Nodup) (hnames : ∀ name ∈ t.names, elementDigits? name = none)
    (hkeys : distinctKeys (before ++ l :: after) = List.range t.size)
    (hshort : ∀ i, l = .index i → (Nat.toDigits 10 i).length ≤ Failure.maxIndexDigits) :
    (t.upTo (distinctKeys before).length).intern (t.nameOf l)
      = .ok (l, t.upTo (distinctKeys (before ++ [l])).length) := by
  cases l with
  | index i =>
      rw [intern, elementDigits?_nameOf_index]
      simp only [hshort i rfl, if_true, Nat.ofDigitChars_ten_toDigits]
      rw [distinctKeys_append_singleton]
  | key k =>
      obtain ⟨hbefore, hle⟩ := distinctKeys_eq_range hkeys
      obtain ⟨hupTo, hle'⟩ : distinctKeys (before ++ [.key k])
          = List.range (distinctKeys (before ++ [.key k])).length ∧ _ :=
        distinctKeys_eq_range (by rw [← List.append_cons]; exact hkeys)
      have hmem : k ∈ distinctKeys (before ++ [.key k]) := mem_distinctKeys.mpr (by simp)
      have hlt : k < t.names.length := by
        rw [hupTo, List.mem_range] at hmem
        rw [length_names]
        exact Nat.lt_of_lt_of_le hmem hle'
      have hname : t.nameOf (.key k) = t.names[k] := by
        have hget : t.nameOf (.key k) = t.names[k]?.getD "" := rfl
        rw [hget, List.getElem?_eq_getElem hlt, Option.getD_some]
      rw [hname, intern, hnames _ (List.getElem_mem hlt)]
      generalize hm : (distinctKeys before).length = m at hbefore hle
      have hlen : (t.names.take m).length = m := by
        rw [List.length_take, length_names]
        exact Nat.min_eq_left hle
      rw [distinctKeys_append_singleton] at hupTo ⊢
      by_cases hk : k ∈ distinctKeys before
      · -- the name has been printed before
        have hkm : k < m := by rwa [hbefore, List.mem_range] at hk
        have hfound : (t.names.take m).idxOf? t.names[k] = some k := by
          refine List.idxOf?_eq_some_iff.mpr ⟨by omega, List.getElem_take, fun j hj heq => ?_⟩
          rw [List.getElem_take] at heq
          exact absurd (hnodup.getElem_inj_iff.mp heq) (Nat.ne_of_lt hj)
        simp only [hk, if_true, upTo, key_ofNames, hfound, hm]
      · -- the name is new, and it is the next one of the list
        simp only [hk, if_false, List.length_append, List.length_singleton] at hupTo ⊢
        rw [hm, List.range_succ, hbefore] at hupTo
        obtain rfl : k = m := by simpa using hupTo
        have hfresh : (t.names.take k).idxOf? t.names[k] = none := by
          refine List.idxOf?_eq_none_iff.mpr fun hin => ?_
          obtain ⟨j, hj, heq⟩ := List.mem_iff_getElem.mp hin
          rw [List.getElem_take] at heq
          have hjk := hnodup.getElem_inj_iff.mp heq
          omega
        simp only [upTo, key_ofNames, hfresh, hlen, hm, List.take_append_getElem hlt]

/-- What an interner makes of a name: an index, a key that it has given before, or a new one. -/
inductive Interned (t : Interner) (name : String) : Label → Interner → Prop where
  | index {digits : List Char} (form : elementDigits? name = some digits)
      (short : digits.length ≤ Failure.maxIndexDigits) :
      Interned t name (.index (Nat.ofDigitChars 10 digits 0)) t
  | known {k : Nat} (plain : elementDigits? name = none) (found : t.key? name = some k) :
      Interned t name (.key k) t
  | fresh (plain : elementDigits? name = none) (new : name ∉ t.names) :
      Interned t name (.key t.size) (t.insert name)

lemma interned_of_intern {t t' : Interner} {name : String} {l : Label}
    (h : t.intern name = .ok (l, t')) : Interned t name l t' := by
  rw [intern] at h
  cases hd : elementDigits? name with
  | some digits =>
      simp only [hd] at h
      split_ifs at h with hshort
      obtain ⟨rfl, rfl⟩ := Prod.mk.inj (Except.ok.inj h)
      exact .index hd hshort
  | none =>
      simp only [hd, key] at h
      cases hfind : t.key? name with
      | some k =>
          simp only [hfind] at h
          obtain ⟨rfl, rfl⟩ := Prod.mk.inj (Except.ok.inj h)
          exact .known hd hfind
      | none =>
          simp only [hfind] at h
          obtain ⟨rfl, rfl⟩ := Prod.mk.inj (Except.ok.inj h)
          exact .fresh hd (key?_eq_none_iff.mp hfind)

/-- **Names are given keys in the order in which they are first seen.** -/
lemma Interned.distinctKeys {t t' : Interner} {name : String} {l : Label} {labels : List Label}
    (h : Interned t name l t') (ht : t.Numbered)
    (hkeys : distinctKeys labels = List.range t.size) :
    distinctKeys (labels ++ [l]) = List.range t'.size := by
  rw [distinctKeys_append_singleton]
  cases h with
  | index _ _ => exact hkeys
  | @known k _ found =>
      have hmem : k ∈ Script.distinctKeys labels := by
        rw [hkeys, List.mem_range]
        exact ht.lt_size_of_key? found
      dsimp only
      rw [if_pos hmem, hkeys]
  | fresh _ _ =>
      have hnew : t.size ∉ Script.distinctKeys labels := by simp [hkeys]
      dsimp only
      rw [if_neg hnew, hkeys, size_insert, List.range_succ]

lemma Interned.nodup {t t' : Interner} {name : String} {l : Label} (h : Interned t name l t')
    (hnodup : t.names.Nodup) : t'.names.Nodup := by
  cases h with
  | index _ _ => exact hnodup
  | known _ _ => exact hnodup
  | fresh _ new =>
      rw [names_insert]
      refine List.nodup_append.mpr ⟨hnodup, by simp, fun a ha b hb heq => new ?_⟩
      rw [← List.mem_singleton.mp hb, ← heq]
      exact ha

/-- What holds of the names that were known and of a name that is no element name holds of all
names in the end. -/
lemma Interned.forall_names {t t' : Interner} {name : String} {l : Label} {p : String → Prop}
    (h : Interned t name l t') (hp : ∀ n ∈ t.names, p n)
    (hname : elementDigits? name = none → p name) : ∀ n ∈ t'.names, p n := by
  cases h with
  | index _ _ => exact hp
  | known _ _ => exact hp
  | fresh plain _ =>
      intro n hn
      rw [names_insert] at hn
      rcases List.mem_append.mp hn with hn | hn
      · exact hp n hn
      · rw [List.mem_singleton.mp hn]
        exact hname plain

/-- An index has no more digits than its name. -/
lemma Interned.short {t t' : Interner} {name : String} {i : Nat}
    (h : Interned t name (.index i) t') :
    (Nat.toDigits 10 i).length ≤ Failure.maxIndexDigits := by
  cases h with
  | index form short =>
      obtain ⟨hne, hdigits, -⟩ := elementDigits?_eq_some_iff.mp form
      exact Nat.le_trans (length_toDigits_ofDigitChars hne hdigits) short

end Interner

end HeapReplay
