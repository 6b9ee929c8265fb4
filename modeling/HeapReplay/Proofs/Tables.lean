import HeapReplay.Table
import Mathlib.Data.List.Induction
import Mathlib.Data.List.Nodup
import Mathlib.Tactic.Lemma
import Mathlib.Tactic.SplitIfs

/-!
# Writing to tables, and renaming their keys

Writing to a table changes what one key leads to, and a key that is new goes to the end; so after
any number of writes a key leads to what was written to it last (`lookup_foldl_set`).

A table with **renamed keys** leads to the same contents, as long as no two keys are given one name:
look-ups and writes can then be made before or after the renaming (`lookup_rename`, `set_rename`).
-/

namespace HeapReplay

/-! ## Writing -/

section Writing

variable {α β γ : Type} [DecidableEq α]

lemma lookup_set (key k : α) (content : β) (t : Table α β) :
    (Table.set key content t).lookup k = if k = key then some content else t.lookup k := by
  induction t with
  | nil => rw [Table.set, lookup_cons_eq_ite]
  | cons p rest ih =>
      obtain ⟨k', c⟩ := p
      rw [Table.set]
      split_ifs with h1 h2 h2
      · rw [lookup_cons_eq_ite, if_pos (h2.trans h1.symm)]
      · rw [lookup_cons_eq_ite, lookup_cons_eq_ite, if_neg (h1 ▸ h2), if_neg (h1 ▸ h2)]
      · rw [lookup_cons_eq_ite, ih, if_pos h2, if_neg (h2 ▸ Ne.symm h1)]
      · rw [lookup_cons_eq_ite, lookup_cons_eq_ite, ih, if_neg h2]

lemma keys_set (key : α) (content : β) (t : Table α β) :
    (Table.set key content t).map Prod.fst
      = if key ∈ t.map Prod.fst then t.map Prod.fst else t.map Prod.fst ++ [key] := by
  induction t with
  | nil => rfl
  | cons p rest ih =>
      obtain ⟨k, c⟩ := p
      rw [Table.set]
      by_cases h : k = key
      · simp [h]
      · rw [if_neg h, List.map_cons, ih]
        by_cases hmem : key ∈ rest.map Prod.fst
        · simp [hmem]
        · rw [if_neg hmem, if_neg (by simpa [Ne.symm h] using hmem)]
          rfl

lemma nodup_keys_set {t : Table α β} (h : (t.map Prod.fst).Nodup) (key : α) (content : β) :
    ((Table.set key content t).map Prod.fst).Nodup := by
  rw [keys_set]
  split_ifs with hmem
  · exact h
  · refine List.nodup_append.mpr ⟨h, by simp, fun a ha b hb heq => hmem ?_⟩
    rw [← List.mem_singleton.mp hb, ← heq]
    exact ha

lemma nodup_keys_foldl_set (f : γ → α) (c : γ → β) {t : Table α β}
    (h : (t.map Prod.fst).Nodup) (ps : List γ) :
    ((ps.foldl (fun t p => Table.set (f p) (c p) t) t).map Prod.fst).Nodup := by
  induction ps generalizing t with
  | nil => exact h
  | cons p ps ih => exact ih (nodup_keys_set h _ _)

lemma mem_keys_foldl_set {f : γ → α} {c : γ → β} {t : Table α β} {ps : List γ}
    {key : α} (h : key ∈ (ps.foldl (fun t p => Table.set (f p) (c p) t) t).map Prod.fst) :
    key ∈ t.map Prod.fst ∨ ∃ p ∈ ps, f p = key := by
  induction ps generalizing t with
  | nil => exact Or.inl h
  | cons p ps ih =>
      rcases ih h with hin | ⟨q, hq, hkey⟩
      · rw [keys_set] at hin
        split_ifs at hin with hmem
        · exact Or.inl hin
        · rcases List.mem_append.mp hin with hin | hin
          · exact Or.inl hin
          · exact Or.inr ⟨p, by simp, (List.mem_singleton.mp hin).symm⟩
      · exact Or.inr ⟨q, by simp [hq], hkey⟩

/-- A key that is not there yet is put at the end. -/
lemma set_of_fresh {t : Table α β} {key : α} (h : key ∉ t.map Prod.fst) (content : β) :
    Table.set key content t = t ++ [(key, content)] := by
  induction t with
  | nil => rfl
  | cons p rest ih =>
      obtain ⟨k, c⟩ := p
      simp only [List.map_cons, List.mem_cons, not_or] at h
      rw [Table.set, if_neg (Ne.symm h.1), ih h.2]
      rfl

/-- An entry is what was written to its key last. -/
lemma lookup_foldl_set (f : γ → α) (c : γ → β) (ps : List γ) (t : Table α β) (k : α) :
    (ps.foldl (fun t p => Table.set (f p) (c p) t) t).lookup k =
      match ps.reverse.find? fun p => f p = k with
      | some p => some (c p)
      | none => t.lookup k := by
  induction ps using List.reverseRecOn with
  | nil => rfl
  | append_singleton ps p ih =>
      rw [List.foldl_append, List.foldl_cons, List.foldl_nil, lookup_set, List.reverse_append,
        List.reverse_singleton, List.singleton_append, List.find?_cons]
      by_cases hkey : f p = k
      · simp [hkey]
      · rw [if_neg (Ne.symm hkey), ih]
        simp [hkey]

/-- If no key occurs twice, an entry is found under its key. -/
lemma lookup_of_mem {t : Table α β} (hnodup : (t.map Prod.fst).Nodup) {key : α} {content : β}
    (h : (key, content) ∈ t) : t.lookup key = some content := by
  induction t with
  | nil => cases h
  | cons p rest ih =>
      obtain ⟨k, c⟩ := p
      rw [List.map_cons, List.nodup_cons] at hnodup
      rw [lookup_cons_eq_ite]
      rcases List.mem_cons.mp h with heq | hrest
      · rw [(Prod.mk.inj heq).1, if_pos rfl, (Prod.mk.inj heq).2]
      · have hne : key ≠ k := by
          rintro rfl
          exact hnodup.1 (List.mem_map.mpr ⟨_, hrest, rfl⟩)
        rw [if_neg hne]
        exact ih hnodup.2 hrest

end Writing

/-! ## Renaming -/

/-- A table with other keys. -/
def Table.rename {α β γ : Type} (f : α → β) (t : Table α γ) : Table β γ :=
  t.map fun (k, c) => (f k, c)

section Renaming

variable {α β γ : Type} [DecidableEq α] [DecidableEq β] {f : α → β}

lemma lookup_rename (injective : f.Injective) (t : Table α γ) (k : α) :
    (t.rename f).lookup (f k) = t.lookup k := by
  induction t with
  | nil => rfl
  | cons p rest ih =>
      obtain ⟨k', c⟩ := p
      have hcons : Table.rename f ((k', c) :: rest) = (f k', c) :: Table.rename f rest := rfl
      rw [hcons, lookup_cons_eq_ite, lookup_cons_eq_ite, ih]
      exact if_congr injective.eq_iff rfl rfl

lemma set_rename (injective : f.Injective) (t : Table α γ) (k : α) (c : γ) :
    Table.set (f k) c (t.rename f) = (Table.set k c t).rename f := by
  induction t with
  | nil => rfl
  | cons p rest ih =>
      obtain ⟨k', c'⟩ := p
      have hcons : Table.rename f ((k', c') :: rest) = (f k', c') :: Table.rename f rest := rfl
      rw [hcons, Table.set, Table.set, ih]
      by_cases h : k' = k
      · rw [if_pos (congrArg f h), if_pos h]
        rfl
      · rw [if_neg (injective.ne h), if_neg h]
        rfl

omit [DecidableEq α] [DecidableEq β] in
lemma rename_injective (injective : f.Injective) :
    (Table.rename f : Table α γ → Table β γ).Injective := by
  refine List.map_injective_iff.mpr fun p p' h => ?_
  exact Prod.ext (injective (Prod.mk.inj h).1) (Prod.mk.inj h).2

end Renaming

end HeapReplay
