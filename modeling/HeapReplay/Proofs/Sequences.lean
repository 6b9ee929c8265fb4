import Mathlib.Data.List.Forall2
import Mathlib.Data.List.Induction
import Mathlib.Tactic.Lemma
import Mathlib.Tactic.SplitIfs

/-!
# Sequences

What the other modules need of lists and is said of no program: mapping with steps that may fail,
the members of lists that are joined or cut, what stands in front of a list, lists that correspond
member by member, and the first occurrences of what a list holds.
-/

namespace HeapReplay

/-- Mapping with steps that all go well is mapping. -/
lemma mapM_eq_pure {m : Type → Type} [Monad m] [LawfulMonad m] {α β : Type} {f : α → m β}
    {f' : α → β} {as : List α} (h : ∀ a ∈ as, f a = pure (f' a)) :
    as.mapM f = pure (as.map f') := by
  induction as with
  | nil => simp
  | cons a as ih =>
      rw [List.mapM_cons, h a (by simp), ih fun b hb => h b (by simp [hb])]
      simp

/-- A computation goes well if its first step does and the rest does with what comes of it. -/
lemma bind_eq_ok_iff {ε α β : Type} {x : Except ε α} {f : α → Except ε β} {b : β} :
    x >>= f = .ok b ↔ ∃ a, x = .ok a ∧ f a = .ok b := by
  cases x with
  | error e => simp [Bind.bind, Except.bind]
  | ok a => simp [Bind.bind, Except.bind]

/-- If mapping goes well, so does each step of it. -/
lemma exists_of_mapM_eq_ok {ε α β : Type} {f : α → Except ε β} {as : List α} {bs : List β}
    (h : as.mapM f = .ok bs) : ∀ a ∈ as, ∃ b, f a = .ok b := by
  induction as generalizing bs with
  | nil => simp
  | cons a as ih =>
      rw [List.mapM_cons] at h
      obtain ⟨b, hb, h⟩ := bind_eq_ok_iff.mp h
      obtain ⟨bs', hbs, -⟩ := bind_eq_ok_iff.mp h
      exact List.forall_mem_cons.mpr ⟨⟨b, hb⟩, ih hbs⟩

/-- Steps that go well wherever others do give the same there. -/
lemma mapM_eq_ok_of_imp {ε α β : Type} {f f' : α → Except ε β}
    (h : ∀ a b, f a = .ok b → f' a = .ok b) {as : List α} {bs : List β}
    (hs : as.mapM f = .ok bs) : as.mapM f' = .ok bs := by
  induction as generalizing bs with
  | nil => exact hs
  | cons a as ih =>
      rw [List.mapM_cons] at hs ⊢
      obtain ⟨b, hb, hs⟩ := bind_eq_ok_iff.mp hs
      obtain ⟨bs', hbs, hs⟩ := bind_eq_ok_iff.mp hs
      exact bind_eq_ok_iff.mpr ⟨b, h a b hb, bind_eq_ok_iff.mpr ⟨bs', ih hbs, hs⟩⟩

/-- A member of joined lists is one of the separator or of a list. -/
lemma mem_intercalate {α : Type} {a : α} {separator : List α} {ls : List (List α)}
    (h : a ∈ separator.intercalate ls) : a ∈ separator ∨ ∃ l ∈ ls, a ∈ l := by
  induction ls with
  | nil => simp at h
  | cons l ls ih =>
      cases ls with
      | nil => exact Or.inr ⟨l, by simp, by simpa using h⟩
      | cons l' ls =>
          rw [List.intercalate_cons_cons, List.append_assoc] at h
          rcases List.mem_append.mp h with h | h
          · exact Or.inr ⟨l, by simp, h⟩
          · rcases List.mem_append.mp h with h | h
            · exact Or.inl h
            · rcases ih h with h | ⟨k, hk, h⟩
              · exact Or.inl h
              · exact Or.inr ⟨k, by simp [hk], h⟩

/-- What is taken from the front of a list ends at the first member that is not wanted. -/
lemma takeWhile_append_cons {α : Type} {p : α → Bool} {as : List α} (h : ∀ a ∈ as, p a = true)
    {b : α} (hb : p b = false) (rest : List α) : (as ++ b :: rest).takeWhile p = as := by
  rw [List.takeWhile_append_of_pos h, List.takeWhile_cons_of_neg (by simp [hb]), List.append_nil]

lemma dropWhile_append_cons {α : Type} {p : α → Bool} {as : List α} (h : ∀ a ∈ as, p a = true)
    {b : α} (hb : p b = false) (rest : List α) : (as ++ b :: rest).dropWhile p = b :: rest := by
  rw [List.dropWhile_append_of_pos h, List.dropWhile_cons_of_neg (by simp [hb])]

/-- The members of a piece of a list are members of the list and no separators. -/
lemma mem_of_mem_splitOn {α : Type} [BEq α] [LawfulBEq α] {a c : α} {xs l : List α}
    (hl : l ∈ xs.splitOn a) (hc : c ∈ l) : c ∈ xs ∧ c ≠ a := by
  induction xs generalizing l with
  | nil =>
      rw [List.splitOn_nil, List.mem_singleton] at hl
      rw [hl] at hc
      cases hc
  | cons x xs ih =>
      rw [List.splitOn_cons_eq_if_modifyHead] at hl
      split_ifs at hl with hx
      · rcases List.mem_cons.mp hl with rfl | hl
        · cases hc
        · exact ⟨List.mem_cons_of_mem _ (ih hl hc).1, (ih hl hc).2⟩
      · obtain ⟨first, rest, hpieces⟩ :=
          List.exists_cons_of_ne_nil (List.splitOn_ne_nil a xs)
        rw [hpieces, List.modifyHead_cons] at hl
        rcases List.mem_cons.mp hl with rfl | hl
        · rcases List.mem_cons.mp hc with rfl | hc
          · exact ⟨by simp, by simpa using hx⟩
          · have hfirst := ih (l := first) (by rw [hpieces]; simp) hc
            exact ⟨List.mem_cons_of_mem _ hfirst.1, hfirst.2⟩
        · have hrest := ih (l := l) (by rw [hpieces]; simp [hl]) hc
          exact ⟨List.mem_cons_of_mem _ hrest.1, hrest.2⟩

/-- A member of a list has a counterpart in a list that corresponds to it. -/
lemma exists_of_forall₂ {α β : Type} {R : α → β → Prop} {as : List α} {bs : List β}
    (h : List.Forall₂ R as bs) {a : α} (ha : a ∈ as) : ∃ b ∈ bs, R a b := by
  obtain ⟨i, hi, rfl⟩ := List.mem_iff_getElem.mp ha
  have hi' : i < bs.length := h.length_eq ▸ hi
  exact ⟨bs[i], List.getElem_mem hi', h.get hi hi'⟩

/-- What corresponds in two lists are members of them. -/
lemma forall₂_mem {α β : Type} {R : α → β → Prop} {as : List α} {bs : List β}
    (h : List.Forall₂ R as bs) : List.Forall₂ (fun a b => (a ∈ as ∧ b ∈ bs) ∧ R a b) as bs :=
  List.forall₂_iff_zip.mpr
    ⟨h.length_eq, fun hzip => ⟨List.of_mem_zip hzip, List.forall₂_zip h hzip⟩⟩

/-- Lists have the same images if they correspond member by member and their members have. -/
lemma map_eq_map_iff_forall₂ {α β γ : Type} {f : α → γ} {f' : β → γ} {as : List α}
    {bs : List β} : as.map f = bs.map f' ↔ List.Forall₂ (fun a b => f a = f' b) as bs := by
  rw [← List.forall₂_eq_eq_eq, List.forall₂_map_left_iff, List.forall₂_map_right_iff]

/-- A list that goes on with a member keeps its first occurrences; a new item is put behind them. -/
lemma eraseDups_append_singleton {α : Type} [BEq α] [LawfulBEq α] (as : List α) (a : α) :
    (as ++ [a]).eraseDups = if a ∈ as then as.eraseDups else as.eraseDups ++ [a] := by
  rw [List.eraseDups_append]
  split_ifs with h <;> simp [List.removeAll, h, List.eraseDups_cons]

/-- Of the first occurrences, no two are the same. -/
lemma nodup_eraseDups {α : Type} [BEq α] [LawfulBEq α] (as : List α) : as.eraseDups.Nodup := by
  induction as using List.reverseRecOn with
  | nil => exact List.nodup_nil
  | append_singleton as a ih =>
      rw [eraseDups_append_singleton]
      split_ifs with h
      · exact ih
      · refine List.nodup_append.mpr ⟨ih, by simp, fun b hb c hc heq => h ?_⟩
        rw [← List.mem_singleton.mp hc, ← heq]
        exact List.mem_eraseDups.mp hb

/-- What is told apart stays apart, so first occurrences are mapped to first occurrences. -/
lemma eraseDups_map {α β : Type} [BEq α] [LawfulBEq α] [BEq β] [LawfulBEq β]
    {f : α → β} (hf : Function.Injective f) (as : List α) :
    (as.map f).eraseDups = as.eraseDups.map f := by
  induction as using List.reverseRecOn with
  | nil => rfl
  | append_singleton as a ih =>
      rw [List.map_append, List.map_singleton, eraseDups_append_singleton,
        eraseDups_append_singleton, ih]
      split_ifs with hmap hmem hmem
      · rfl
      · obtain ⟨b, hb, heq⟩ := List.mem_map.mp hmap
        exact absurd (hf heq ▸ hb) hmem
      · exact absurd (List.mem_map_of_mem hmem) hmap
      · rw [List.map_append, List.map_singleton]

end HeapReplay
