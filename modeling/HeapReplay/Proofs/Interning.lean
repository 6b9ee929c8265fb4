import HeapReplay.Proofs.Updating

/-!
# A table of labels over its history

A table of labels is asked for one name after another.  It answers with a label or with a failure,
and after a failure it can be asked again: the next call is made of whatever the failed one has left.
So a history of calls is any list of names, and it starts from the empty table.

**No answer is ever revised.**  Names are only added at the end, so what a table answers it answers
from then on (`answer_again`).  Every call of a history can therefore be repeated on the table that
the whole history leaves, and all answers are compared there: names of elements by the numbers that
they stand for, the others by their places in one list without repetitions.

What that makes of a history is `Accounts`, and `labels_account_for_history` says that it holds of
every history of names that stay on one line.
-/

namespace HeapReplay

/-! ## Names of elements -/

/-- The digits in the name of an array element. -/
def HasDigits (name : String) (digits : List Char) : Prop :=
  digits ≠ [] ∧ (∀ c ∈ digits, c.isDigit = true) ∧
    name.toList = elementOpening ++ digits ++ [']']

lemma isElementName_iff {name : String} : IsElementName name ↔ ∃ digits, HasDigits name digits :=
  Iff.rfl

lemma HasDigits.elementDigits? {name : String} {digits : List Char} (h : HasDigits name digits) :
    elementDigits? name = some digits :=
  elementDigits?_eq_some_iff.mpr
    ⟨h.1, h.2.1, [']'], Or.inl rfl, h.2.2.trans (List.append_assoc ..)⟩

lemma HasDigits.unique {name : String} {digits digits' : List Char} (h : HasDigits name digits)
    (h' : HasDigits name digits') : digits = digits' :=
  Option.some.inj (h.elementDigits?.symm.trans h'.elementDigits?)

lemma HasDigits.newline_not_mem {name : String} {digits : List Char} (h : HasDigits name digits) :
    '\n' ∉ name.toList := by
  rw [h.2.2, List.append_assoc]
  exact newline_not_mem_element h.2.1

instance : DecidablePred IsElementName := fun name =>
  decidable_of_iff ('\n' ∉ name.toList ∧ elementDigits? name ≠ none) <| by
    constructor
    · rintro ⟨hsingle, hsome⟩
      exact not_not.mp ((elementDigits?_eq_none_iff hsingle).not.mp hsome)
    · rintro ⟨digits, h⟩
      have hdigits : HasDigits name digits := h
      exact ⟨hdigits.newline_not_mem, by simp [hdigits.elementDigits?]⟩

/-- Whether two names have to have the same label: they name the same element, or they are the same
name of something else. -/
def SameLabel (name name' : String) : Prop :=
  (∃ digits digits', HasDigits name digits ∧ HasDigits name' digits' ∧
      Nat.ofDigitChars 10 digits 0 = Nat.ofDigitChars 10 digits' 0) ∨
    ¬ IsElementName name ∧ ¬ IsElementName name' ∧ name = name'

lemma sameLabel_iff_of_digits {name name' : String} {digits digits' : List Char}
    (h : HasDigits name digits) (h' : HasDigits name' digits') : SameLabel name name' ↔
      Nat.ofDigitChars 10 digits 0 = Nat.ofDigitChars 10 digits' 0 := by
  constructor
  · rintro (⟨ds, ds', hds, hds', heq⟩ | ⟨hno, -, -⟩)
    · rwa [h.unique hds, h'.unique hds']
    · exact absurd ⟨digits, h⟩ hno
  · exact fun heq => Or.inl ⟨digits, digits', h, h', heq⟩

lemma sameLabel_iff_of_plain {name name' : String} (h : ¬ IsElementName name)
    (h' : ¬ IsElementName name') : SameLabel name name' ↔ name = name' := by
  constructor
  · rintro (⟨digits, -, hdigits, -, -⟩ | ⟨-, -, heq⟩)
    · exact absurd ⟨digits, hdigits⟩ h
    · exact heq
  · exact fun heq => Or.inr ⟨h, h', heq⟩

/-- A name of an element has nothing in common with another name. -/
lemma SameLabel.isElementName_iff {name name' : String} (h : SameLabel name name') :
    IsElementName name ↔ IsElementName name' := by
  rcases h with ⟨digits, digits', hdigits, hdigits', -⟩ | ⟨hno, hno', -⟩
  · exact iff_of_true ⟨digits, hdigits⟩ ⟨digits', hdigits'⟩
  · exact iff_of_false hno hno'

namespace Interner

open Script InPlace

/-! ## Calls and histories -/

/-- What a table answers to a call, and what the call leaves of the table. -/
def answer (t : Interner) (name : String) : Except Failure Label × Interner :=
  match internInPlace name t with
  | .ok l t' => (.ok l, t')
  | .error f t' => (.error f, t')

/-- What a history of calls leaves of a table. -/
def after (t : Interner) (calls : List String) : Interner :=
  calls.foldl (fun t name => (t.answer name).2) t

/-- The answers to a history of calls. -/
def answers (t : Interner) : List String → List (Except Failure Label)
  | [] => []
  | name :: calls => (t.answer name).1 :: answers (t.answer name).2 calls

/-- The labels among some answers. -/
def labels (as : List (Except Failure Label)) : List Label :=
  as.filterMap Except.toOption

/-- **What the answers to a history and the table at its end are like.** -/
structure Accounts (calls : List String) (as : List (Except Failure Label)) (t : Interner) :
    Prop where
  /-- Every call has its answer. -/
  answered : as.length = calls.length
  /-- The name of an element is labelled with the number of the element, or its digits are too
  many. -/
  element : ∀ {name digits a}, (name, a) ∈ calls.zip as → HasDigits name digits →
    a = if digits.length ≤ Failure.maxIndexDigits then .ok (.index (Nat.ofDigitChars 10 digits 0))
      else .error (.indexTooLong digits.length)
  /-- Every other name is labelled with the key that it is listed with. -/
  plain : ∀ {name a}, (name, a) ∈ calls.zip as → ¬ IsElementName name →
    ∃ k, a = .ok (.key k) ∧ (name, k) ∈ t.entries
  /-- The other names are listed once each, as they were first seen, with keys from zero on. -/
  listed : t.entries = (calls.filter fun name => ¬ IsElementName name).eraseDups.zipIdx
  /-- There are as many keys as there are other names. -/
  size : t.size = (calls.filter fun name => ¬ IsElementName name).eraseDups.length
  /-- The keys that were given are those below the size, in this order. -/
  dense : ((labels as).filterMap Label.key?).eraseDups = List.range t.size
  /-- Labels are the same only if they have to be. -/
  same_iff : ∀ {name name' l l'}, (name, .ok l) ∈ calls.zip as → (name', .ok l') ∈ calls.zip as →
    (l = l' ↔ SameLabel name name')

/-! ## One call -/

variable {t t' : Interner} {name : String}

lemma answer_of_ok {l : Label} (h : t.intern name = .ok (l, t')) : t.answer name = (.ok l, t') := by
  rw [answer, internInPlace_eq, h]
  rfl

/-- A call that fails leaves the table as it was. -/
lemma answer_of_error {f : Failure} (h : t.intern name = .error f) :
    t.answer name = (.error f, t) := by
  rw [answer, internInPlace_eq, h]
  rfl

lemma eq_of_internInPlace_eq_error {f : Failure} (h : internInPlace name t = .error f t') :
    t' = t := by
  rw [internInPlace_eq] at h
  cases hi : t.intern name with
  | ok p =>
      rw [hi] at h
      cases h
  | error g =>
      rw [hi] at h
      injection h with _ hstate
      exact hstate.symm

lemma answer_of_digits {digits : List Char} (h : elementDigits? name = some digits) :
    t.answer name = (if digits.length ≤ Failure.maxIndexDigits then
        .ok (.index (Nat.ofDigitChars 10 digits 0)) else .error (.indexTooLong digits.length), t) := by
  by_cases hshort : digits.length ≤ Failure.maxIndexDigits
  · rw [if_pos hshort]
    exact answer_of_ok (by simp only [intern, h, if_pos hshort])
  · rw [if_neg hshort]
    exact answer_of_error (by simp only [intern, h, if_neg hshort])

lemma answer_of_known {k : Nat} (h : elementDigits? name = none)
    (found : t.key? name = some k) : t.answer name = (.ok (.key k), t) :=
  answer_of_ok (by simp only [intern, h, key, found])

lemma answer_of_fresh (h : elementDigits? name = none) (fresh : name ∉ t.names) :
    t.answer name = (.ok (.key t.size), t.insert name) :=
  answer_of_ok (by simp only [intern, h, key, key?_eq_none_iff.mpr fresh])

lemma answer_cases (t : Interner) (name : String) :
    (∃ digits, elementDigits? name = some digits) ∨
      elementDigits? name = none ∧ ((∃ k, t.key? name = some k) ∨ name ∉ t.names) := by
  cases hd : elementDigits? name with
  | some digits => exact Or.inl ⟨digits, rfl⟩
  | none =>
      cases hfind : t.key? name with
      | some k => exact Or.inr ⟨rfl, Or.inl ⟨k, rfl⟩⟩
      | none => exact Or.inr ⟨rfl, Or.inr (key?_eq_none_iff.mp hfind)⟩

/-- Names are only added, and only at the end. -/
lemma entries_prefix_answer (t : Interner) (name : String) :
    t.entries <+: (t.answer name).2.entries := by
  rcases answer_cases t name with ⟨digits, h⟩ | ⟨h, ⟨k, found⟩ | fresh⟩
  · exact ⟨[], by rw [answer_of_digits h, List.append_nil]⟩
  · exact ⟨[], by rw [answer_of_known h found, List.append_nil]⟩
  · exact ⟨[(name, t.size)], by rw [answer_of_fresh h fresh, insert]⟩

/-- A call keeps the keys in order. -/
lemma Numbered.answer (h : t.Numbered) (name : String) : (t.answer name).2.Numbered := by
  cases hi : t.intern name with
  | ok p => exact answer_of_ok hi ▸ h.intern hi
  | error f => exact answer_of_error hi ▸ h

lemma key?_of_begins {k : Nat} (hbegins : t.entries <+: t'.entries)
    (found : t.key? name = some k) : t'.key? name = some k := by
  obtain ⟨rest, hentries⟩ := hbegins
  rw [key?, ← hentries, List.lookup_append]
  exact Option.or_eq_some_iff.mpr (Or.inl found)

/-- A name that has just been given a key has it. -/
lemma key?_insert (fresh : name ∉ t.names) : (t.insert name).key? name = some t.size := by
  have hnone : t.entries.lookup name = none := key?_eq_none_iff.mpr fresh
  simp [key?, insert, List.lookup_append, hnone]

/-- **An answer stays the answer**, of the table that the call leaves and of every one that comes of
it. -/
lemma answer_again (h : (t.answer name).2.entries <+: t'.entries) :
    t'.answer name = ((t.answer name).1, t') := by
  rcases answer_cases t name with ⟨digits, hd⟩ | ⟨hd, ⟨k, found⟩ | fresh⟩
  · rw [answer_of_digits hd, answer_of_digits hd]
  · rw [answer_of_known hd found] at h ⊢
    exact answer_of_known hd (key?_of_begins h found)
  · rw [answer_of_fresh hd fresh] at h ⊢
    exact answer_of_known hd (key?_of_begins h (key?_insert fresh))

/-! ## Histories -/

lemma after_append (t : Interner) (calls later : List String) :
    t.after (calls ++ later) = (t.after calls).after later :=
  List.foldl_append

lemma answers_append (t : Interner) (calls later : List String) :
    t.answers (calls ++ later) = t.answers calls ++ (t.after calls).answers later := by
  induction calls generalizing t with
  | nil => rfl
  | cons name calls ih =>
      rw [List.cons_append, answers, ih]
      rfl

lemma entries_prefix_after (t : Interner) (calls : List String) :
    t.entries <+: (t.after calls).entries := by
  induction calls generalizing t with
  | nil => exact List.prefix_refl _
  | cons name calls ih => exact (entries_prefix_answer t name).trans (ih _)

lemma Numbered.after (h : t.Numbered) (calls : List String) : (t.after calls).Numbered := by
  induction calls generalizing t with
  | nil => exact h
  | cons name calls ih => exact ih (h.answer name)

/-- Every call of a history has its answer again at the end, and changes nothing then. -/
lemma answer_after {calls : List String} {a : Except Failure Label}
    (h : (name, a) ∈ calls.zip (t.answers calls)) :
    (t.after calls).answer name = (a, t.after calls) := by
  induction calls generalizing t with
  | nil => cases h
  | cons first calls ih =>
      rcases List.mem_cons.mp h with heq | h
      · obtain ⟨rfl, rfl⟩ := Prod.mk.inj heq
        exact answer_again (entries_prefix_after _ calls)
      · exact ih h

/-- Later calls do not change an answer. -/
lemma answer_after_append {calls : List String} {a : Except Failure Label}
    (h : (name, a) ∈ calls.zip (t.answers calls)) (later : List String) :
    (t.after (calls ++ later)).answer name = (a, t.after (calls ++ later)) := by
  have hanswer := answer_after h
  rw [after_append]
  refine (answer_again ?_).trans (by rw [hanswer])
  rw [hanswer]
  exact entries_prefix_after _ later

/-- **The table lists the names that were first seen**, those of elements left out. -/
lemma names_after (calls : List String) :
    (after {} calls).names
      = (calls.filter fun name => decide (elementDigits? name = none)).eraseDups := by
  induction calls using List.reverseRecOn with
  | nil => rfl
  | append_singleton calls name ih =>
      have hstep : after {} (calls ++ [name]) = ((after {} calls).answer name).2 :=
        after_append {} calls [name]
      rw [hstep, List.filter_append]
      rcases answer_cases (after {} calls) name with ⟨digits, h⟩ | ⟨h, ⟨k, found⟩ | fresh⟩
      · rw [answer_of_digits h, ih]
        simp [h]
      · have hmem : name ∈ (after {} calls).names := by
          by_contra hnot
          rw [key?_eq_none_iff.mpr hnot] at found
          cases found
        rw [ih, List.mem_eraseDups] at hmem
        have hname : [name].filter (fun name => decide (elementDigits? name = none)) = [name] := by
          simp [h]
        rw [answer_of_known h found, hname, eraseDups_append_singleton, if_pos hmem, ih]
      · have hnew := fresh
        rw [ih, List.mem_eraseDups] at hnew
        have hname : [name].filter (fun name => decide (elementDigits? name = none)) = [name] := by
          simp [h]
        rw [answer_of_fresh h fresh, names_insert, hname, eraseDups_append_singleton, if_neg hnew,
          ih]

/-- **Keys are numbered as they are first given.** -/
lemma distinctKeys_answers (calls : List String) :
    distinctKeys (labels (answers {} calls)) = List.range (after {} calls).size := by
  induction calls using List.reverseRecOn with
  | nil => rfl
  | append_singleton calls name ih =>
      have hstep : after {} (calls ++ [name]) = ((after {} calls).answer name).2 :=
        after_append {} calls [name]
      rw [hstep, answers_append]
      cases h : (after {} calls).intern name with
      | ok p =>
          have hlabels : labels (answers {} calls ++ (after {} calls).answers [name])
              = labels (answers {} calls) ++ [p.1] := by
            rw [labels, List.filterMap_append, answers, answer_of_ok h]
            rfl
          rw [hlabels, answer_of_ok h]
          exact (interned_of_intern h).distinctKeys (numbered_empty.after calls) ih
      | error f =>
          have hlabels : labels (answers {} calls ++ (after {} calls).answers [name])
              = labels (answers {} calls) := by
            rw [labels, List.filterMap_append, answers, answer_of_error h]
            exact List.append_nil _
          rw [hlabels, answer_of_error h, ih]

/-! ## Labels at the end of a history -/

/-- A table that a call leaves as it is lists the name, if it does not name an element. -/
lemma exists_key_of_answer {a : Except Failure Label} (plain : elementDigits? name = none)
    (h : t.answer name = (a, t)) : ∃ k, a = .ok (.key k) ∧ (name, k) ∈ t.entries := by
  rcases answer_cases t name with ⟨digits, hd⟩ | ⟨-, ⟨k, found⟩ | fresh⟩
  · rw [plain] at hd
    cases hd
  · rw [answer_of_known plain found] at h
    exact ⟨k, (Prod.mk.inj h).1.symm, mem_of_lookup found⟩
  · rw [answer_of_fresh plain fresh] at h
    have hsize : (t.insert name).size = t.size := congrArg (fun p => p.2.size) h
    simp at hsize

lemma label_of_digits {digits : List Char} {l : Label} (hd : elementDigits? name = some digits)
    (h : t.answer name = (.ok l, t)) : l = .index (Nat.ofDigitChars 10 digits 0) := by
  rw [answer_of_digits hd] at h
  have hlabel := (Prod.mk.inj h).1
  split_ifs at hlabel
  exact (Except.ok.inj hlabel).symm

/-- What the label of a name is at the end of a history. -/
lemma label_cases {l : Label} (single : '\n' ∉ name.toList) (h : t.answer name = (.ok l, t)) :
    (∃ digits, HasDigits name digits ∧ l = .index (Nat.ofDigitChars 10 digits 0)) ∨
      ∃ k, ¬ IsElementName name ∧ l = .key k ∧ (name, k) ∈ t.entries := by
  by_cases he : IsElementName name
  · obtain ⟨digits, hdigits⟩ := isElementName_iff.mp he
    exact Or.inl ⟨digits, hdigits, label_of_digits hdigits.elementDigits? h⟩
  · obtain ⟨k, hk, hlisted⟩ := exists_key_of_answer ((elementDigits?_eq_none_iff single).mpr he) h
    exact Or.inr ⟨k, he, Except.ok.inj hk, hlisted⟩

/-- **Names of the same label are names of the same element or the same name.** -/
lemma label_eq_iff (ht : t.Numbered) {name' : String} {l l' : Label}
    (single : '\n' ∉ name.toList) (single' : '\n' ∉ name'.toList) (h : t.answer name = (.ok l, t))
    (h' : t.answer name' = (.ok l', t)) : l = l' ↔ SameLabel name name' := by
  rcases label_cases single h with ⟨ds, hds, rfl⟩ | ⟨k, hother, rfl, hlisted⟩ <;>
    rcases label_cases single' h' with ⟨ds', hds', rfl⟩ | ⟨k', hother', rfl, hlisted'⟩
  · -- two elements are told apart by their numbers
    rw [Label.index.injEq, sameLabel_iff_of_digits hds hds']
  · exact iff_of_false nofun fun hsame => hother' (hsame.isElementName_iff.mp ⟨ds, hds⟩)
  · exact iff_of_false nofun fun hsame => hother (hsame.isElementName_iff.mpr ⟨ds', hds'⟩)
  · -- two other names are told apart by their places
    rw [Label.key.injEq, sameLabel_iff_of_plain hother hother']
    constructor
    · rintro rfl
      exact ht.eq_of_mem_entries hlisted hlisted'
    · rintro rfl
      rw [h] at h'
      exact Label.key.inj (Except.ok.inj (Prod.mk.inj h').1)

lemma length_answers (t : Interner) (calls : List String) :
    (t.answers calls).length = calls.length := by
  induction calls generalizing t with
  | nil => rfl
  | cons name calls ih => rw [answers, List.length_cons, List.length_cons, ih]

/-- A table that started empty accounts for the calls that were made of it. -/
lemma accounts_answers {calls : List String} (single : ∀ name ∈ calls, '\n' ∉ name.toList) :
    Accounts calls (answers {} calls) (after {} calls) := by
  have hplain : ∀ name ∈ calls, elementDigits? name = none ↔ ¬ IsElementName name :=
    fun name hname => elementDigits?_eq_none_iff (single name hname)
  have hnames : (after {} calls).names
      = (calls.filter fun name => ¬ IsElementName name).eraseDups := by
    rw [names_after]
    congr 1
    exact List.filter_congr fun name hname => decide_eq_decide.mpr (hplain name hname)
  constructor
  case answered => exact length_answers {} calls
  case element =>
    intro name digits a h hdigits
    have hanswer := (answer_after h).symm.trans (answer_of_digits hdigits.elementDigits?)
    exact (Prod.mk.inj hanswer).1
  case plain =>
    intro name a h hother
    exact exists_key_of_answer ((hplain name (List.of_mem_zip h).1).mpr hother) (answer_after h)
  case listed => exact (numbered_empty.after calls).trans (congrArg List.zipIdx hnames)
  case size => exact (length_names _).symm.trans (congrArg List.length hnames)
  case dense => rw [← distinctKeys_eq_eraseDups, distinctKeys_answers]
  case same_iff =>
    intro name name' l l' h h'
    exact label_eq_iff (numbered_empty.after calls) (single name (List.of_mem_zip h).1)
      (single name' (List.of_mem_zip h').1) (answer_after h) (answer_after h')

/-- **Labels account for their history.**  Whatever names an empty table is asked for, one after
another, as long as each stays on one line: the answers and the table are as `Accounts` says.  They
stay so whatever the table is asked for later, each answer being the answer to this name from then
on; and a call that fails leaves the table as it was. -/
theorem labels_account_for_history {calls : List String}
    (single : ∀ name ∈ calls, '\n' ∉ name.toList) :
    Accounts calls (answers {} calls) (after {} calls) ∧
      (∀ later, answers {} (calls ++ later) = answers {} calls ++ (after {} calls).answers later ∧
        ∀ name a, (name, a) ∈ calls.zip (answers {} calls) →
          (after {} (calls ++ later)).answer name = (a, after {} (calls ++ later))) ∧
      ∀ name f t, internInPlace name (after {} calls) = .error f t → t = after {} calls := by
  refine ⟨accounts_answers single, fun later => ⟨answers_append {} calls later, ?_⟩, ?_⟩
  · intro name a h
    exact answer_after_append h later
  · intro name f t h
    exact eq_of_internInPlace_eq_error h

lemma newline_not_mem_zerosName (count : Nat) : '\n' ∉ (zerosName count).toList := by
  rw [zerosName, String.toList_ofList]
  refine newline_not_mem_element fun c hc => ?_
  rw [List.eq_of_mem_replicate hc]
  rfl

lemma answer_zerosName (t : Interner) {count : Nat} (h : Failure.maxIndexDigits < count) :
    t.answer (zerosName count) = (.error (.indexTooLong count), t) := by
  rw [answer_of_digits (elementDigits?_zerosName (Nat.ne_zero_of_lt h)), List.length_replicate,
    if_neg (Nat.not_le_of_lt h)]

/-- Calls before one that fails. -/
def earlyCalls : List String :=
  ["next", "objectElements[7]"]

/-- Calls after it: another spelling of the element, a name once more, and names that are nearly
those of elements. -/
def lateCalls : List String :=
  ["objectElements[]", "objectElements[007]", "objectElements[+7]", "next", "objectElements[\uff17]"]

/-- Both spellings get one label, and the call that fails leaves no gap between the keys. -/
theorem zerosName_accounted :
    let calls := earlyCalls ++ zerosName 4301 :: lateCalls
    answers {} calls = [.ok (.key 0), .ok (.index 7), .error (.indexTooLong 4301),
      .ok (.key 1), .ok (.index 7), .ok (.key 2), .ok (.key 0), .ok (.key 3)] ∧
    (after {} calls).entries = [("next", 0), ("objectElements[]", 1),
      ("objectElements[+7]", 2), ("objectElements[\uff17]", 3)] ∧
    Accounts calls (answers {} calls) (after {} calls) := by
  intro calls
  have hzeros := answer_zerosName (after {} earlyCalls) (by decide : Failure.maxIndexDigits < 4301)
  have single : ∀ name ∈ calls, '\n' ∉ name.toList := by
    simp only [calls, List.forall_mem_append, List.forall_mem_cons]
    exact ⟨by decide +kernel, newline_not_mem_zerosName 4301, by decide +kernel⟩
  refine ⟨?_, ?_, (labels_account_for_history single).1⟩
  · rw [answers_append, answers, hzeros]
    decide +kernel
  · rw [after_append, after, List.foldl_cons, hzeros]
    decide +kernel

end Interner

end HeapReplay
