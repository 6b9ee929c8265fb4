import HeapReplay.Proofs.Interning

/-!
# Which names are indices

A table takes a name for the index of an element if it has the form of an element name, with nothing
in front and nothing behind.  **One newline is overlooked**: it may stand behind the closing bracket,
and then the name is an index all the same.  So the form that a table goes by is `EndsAsElement`,
and `indices_end_as_elements` says that it goes by this form alone, whatever characters a name is
made of and whatever the table was asked for before.

Among names that stay on one line the two forms are the same, and what a table makes of those is the
matter of `Interner.Accounts`.
-/

namespace HeapReplay

/-- The digits of an element name, behind which one newline may stand. -/
def EndsAsElement (name : String) (digits : List Char) : Prop :=
  HasDigits name digits ∨ ∃ exact, HasDigits exact digits ∧ name = exact ++ "\n"

/-- **A table reads digits where a name ends as that of an element.** -/
lemma elementDigits?_eq_some_iff_ends {name : String} {digits : List Char} :
    elementDigits? name = some digits ↔ EndsAsElement name digits := by
  rw [elementDigits?_eq_some_iff]
  constructor
  · rintro ⟨hne, hdigits, closing, rfl | rfl, hname⟩
    · exact Or.inl ⟨hne, hdigits, by rw [hname, List.append_assoc]⟩
    · refine Or.inr ⟨String.ofList (elementOpening ++ digits ++ [']']),
        ⟨hne, hdigits, String.toList_ofList⟩, String.toList_injective ?_⟩
      rw [hname, String.toList_append, String.toList_ofList, List.append_assoc, List.append_assoc]
      rfl
  · rintro (⟨hne, hdigits, hname⟩ | ⟨exact, ⟨hne, hdigits, hname⟩, rfl⟩)
    · exact ⟨hne, hdigits, [']'], Or.inl rfl, by rw [hname, List.append_assoc]⟩
    · refine ⟨hne, hdigits, [']', '\n'], Or.inr rfl, ?_⟩
      rw [String.toList_append, hname, List.append_assoc, List.append_assoc]
      rfl

namespace Interner

variable {t : Interner} {name name' : String} {a : Except Failure Label}

/-- What a table answers to a name that ends as that of an element. -/
lemma answer_of_ends {digits : List Char} (hd : EndsAsElement name digits)
    (h : t.answer name = (a, t)) : a = if digits.length ≤ Failure.maxIndexDigits then
      .ok (.index (Nat.ofDigitChars 10 digits 0)) else .error (.indexTooLong digits.length) := by
  rw [answer_of_digits (elementDigits?_eq_some_iff_ends.mpr hd)] at h
  exact (Prod.mk.inj h).1.symm

/-- What a table answers to any other name. -/
lemma exists_key_of_not_ends (hd : ∀ digits, ¬ EndsAsElement name digits)
    (h : t.answer name = (a, t)) : ∃ k, a = .ok (.key k) ∧ (name, k) ∈ t.entries := by
  refine exists_key_of_answer ?_ h
  rw [Option.eq_none_iff_forall_ne_some]
  exact fun digits hsome => hd digits (elementDigits?_eq_some_iff_ends.mp hsome)

lemma index_iff_ends (h : t.answer name = (a, t)) (n : Nat) : a = .ok (.index n) ↔
    ∃ digits, EndsAsElement name digits ∧ digits.length ≤ Failure.maxIndexDigits ∧
      Nat.ofDigitChars 10 digits 0 = n := by
  constructor
  · rintro rfl
    by_cases hd : ∃ digits, EndsAsElement name digits
    · obtain ⟨digits, hd⟩ := hd
      have hanswer := answer_of_ends hd h
      split_ifs at hanswer with hshort
      exact ⟨digits, hd, hshort, (Label.index.inj (Except.ok.inj hanswer)).symm⟩
    · obtain ⟨k, hk, -⟩ := exists_key_of_not_ends (not_exists.mp hd) h
      cases hk
  · rintro ⟨digits, hd, hshort, rfl⟩
    rw [answer_of_ends hd h, if_pos hshort]

lemma key_iff_not_ends (h : t.answer name = (a, t)) :
    (∃ k, a = .ok (.key k)) ↔ ∀ digits, ¬ EndsAsElement name digits := by
  constructor
  · rintro ⟨k, rfl⟩ digits hd
    have hanswer := answer_of_ends hd h
    split_ifs at hanswer
    cases hanswer
  · intro hd
    obtain ⟨k, hk, -⟩ := exists_key_of_not_ends hd h
    exact ⟨k, hk⟩

/-- Names share a label if they are the same, or indices that are spelled in two ways. -/
lemma label_eq_iff_ends (ht : t.Numbered) {l l' : Label} (h : t.answer name = (.ok l, t))
    (h' : t.answer name' = (.ok l', t)) : l = l' ↔ name = name' ∨
      ∃ digits digits', EndsAsElement name digits ∧ EndsAsElement name' digits' ∧
        Nat.ofDigitChars 10 digits 0 = Nat.ofDigitChars 10 digits' 0 := by
  constructor
  · rintro rfl
    cases l with
    | index n =>
        obtain ⟨digits, hd, -, hn⟩ := (index_iff_ends h n).mp rfl
        obtain ⟨digits', hd', -, hn'⟩ := (index_iff_ends h' n).mp rfl
        exact Or.inr ⟨digits, digits', hd, hd', hn.trans hn'.symm⟩
    | key k =>
        obtain ⟨i, hi, hlisted⟩ :=
          exists_key_of_not_ends ((key_iff_not_ends h).mp ⟨k, rfl⟩) h
        obtain ⟨j, hj, hlisted'⟩ :=
          exists_key_of_not_ends ((key_iff_not_ends h').mp ⟨k, rfl⟩) h'
        obtain rfl : i = j := Label.key.inj (Except.ok.inj (hi.symm.trans hj))
        exact Or.inl (ht.eq_of_mem_entries hlisted hlisted')
  · rintro (rfl | ⟨digits, digits', hd, hd', hvalue⟩)
    · exact Except.ok.inj (Prod.mk.inj (h.symm.trans h')).1
    · rw [label_of_digits (elementDigits?_eq_some_iff_ends.mpr hd) h,
        label_of_digits (elementDigits?_eq_some_iff_ends.mpr hd') h', hvalue]

/-- **The form of a name decides whether it is an index**, and nothing else does.  Whatever strings
an empty table is asked for, one after another: a name is labelled with an index exactly if it ends
as that of an element, of this number and with no more digits than are converted; if the digits are
more the call fails, and every other name is labelled with a key.  Two names of a history share their
label exactly if they are the same or end as those of one element.  What is taken for an index and is
not the name of an element is such a name with a newline behind it. -/
theorem indices_end_as_elements (calls : List String) :
    (∀ name a, (name, a) ∈ calls.zip (answers {} calls) →
      (∀ n, a = .ok (.index n) ↔ ∃ digits, EndsAsElement name digits ∧
        digits.length ≤ Failure.maxIndexDigits ∧ Nat.ofDigitChars 10 digits 0 = n) ∧
      (∀ digits, EndsAsElement name digits → Failure.maxIndexDigits < digits.length →
        a = .error (.indexTooLong digits.length)) ∧
      ((∃ k, a = .ok (.key k)) ↔ ∀ digits, ¬ EndsAsElement name digits)) ∧
    (∀ name name' l l', (name, .ok l) ∈ calls.zip (answers {} calls) →
      (name', .ok l') ∈ calls.zip (answers {} calls) →
      (l = l' ↔ name = name' ∨ ∃ digits digits', EndsAsElement name digits ∧
        EndsAsElement name' digits' ∧
        Nat.ofDigitChars 10 digits 0 = Nat.ofDigitChars 10 digits' 0)) ∧
    ∀ name n, (name, .ok (.index n)) ∈ calls.zip (answers {} calls) →
      IsElementName name ∨ ∃ exact, IsElementName exact ∧ name = exact ++ "\n" := by
  refine ⟨fun name a h => ?_, fun name name' l l' h h' => ?_, fun name n h => ?_⟩
  · have hanswer := answer_after h
    refine ⟨index_iff_ends hanswer, fun digits hd hlong => ?_, key_iff_not_ends hanswer⟩
    rw [answer_of_ends hd hanswer, if_neg (Nat.not_le_of_lt hlong)]
  · exact label_eq_iff_ends (numbered_empty.after calls) (answer_after h) (answer_after h')
  · obtain ⟨digits, hexact | ⟨exact, hexact, hname⟩, -⟩ :=
      (index_iff_ends (answer_after h) n).mp rfl
    · exact Or.inl ⟨digits, hexact⟩
    · exact Or.inr ⟨exact, ⟨digits, hexact⟩, hname⟩

/-- A name with a newline behind it is taken for an index, and so it shares the label of an element;
with two of them, or with one in front, it is not. -/
theorem newline_taken_for_index :
    let calls := ["objectElements[07]", "objectElements[7]\n", "objectElements[7]\n\n",
      "\nobjectElements[7]"]
    answers {} calls = [.ok (.index 7), .ok (.index 7), .ok (.key 0), .ok (.key 1)] ∧
    ¬ IsElementName "objectElements[7]\n" ∧
    (∃ digits, EndsAsElement "objectElements[7]\n" digits) ∧
    ∀ digits, ¬ EndsAsElement "objectElements[7]\n\n" digits := by
  intro calls
  have hcalls : answers {} calls = [.ok (.index 7), .ok (.index 7), .ok (.key 0), .ok (.key 1)] := by
    decide +kernel
  obtain ⟨hform, -, -⟩ := indices_end_as_elements calls
  rw [hcalls] at hform
  refine ⟨hcalls, by decide +kernel, ?_, ?_⟩
  · obtain ⟨digits, hd, -⟩ :=
      ((hform "objectElements[7]\n" (.ok (.index 7)) (by simp [calls])).1 7).mp rfl
    exact ⟨digits, hd⟩
  · exact (hform "objectElements[7]\n\n" (.ok (.key 0)) (by simp [calls])).2.2.mp ⟨0, rfl⟩

end Interner

end HeapReplay
