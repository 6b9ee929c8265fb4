/-!
# Tables

A table is a list of entries, each a key and what is stored under it; a look-up finds the first entry
of its key.  Entries are made at the end, so the order of a table is the order in which its keys came
up.

**Numbered tables.**  Where keys are numbered as they come up, the number of a key is its place in the
list of keys (`lookup_zipIdx`).
-/

namespace HeapReplay

/-- Entries by key, the one that was made first in front. -/
abbrev Table (α β : Type) := List (α × β)

/-- Sets the entry of a key, which keeps its place if it has one. -/
def Table.set {α β : Type} [DecidableEq α] (key : α) (content : β) : Table α β → Table α β
  | [] => [(key, content)]
  | (k, c) :: rest =>
    if k = key then (k, content) :: rest else (k, c) :: Table.set key content rest

variable {α β : Type} [DecidableEq α]

theorem lookup_cons_eq_ite (key k : α) (content : β) (t : Table α β) :
    List.lookup key ((k, content) :: t) = if key = k then some content else t.lookup key := by
  rw [List.lookup_cons]
  by_cases h : key = k
  · simp [h]
  · have hbeq : (key == k) = false := by simpa using h
    rw [hbeq, if_neg h]

theorem lookup_eq_none_iff_not_mem {t : Table α β} {key : α} :
    t.lookup key = none ↔ key ∉ t.map Prod.fst := by
  induction t with
  | nil => simp
  | cons p rest ih =>
    obtain ⟨k, c⟩ := p
    rw [lookup_cons_eq_ite, List.map_cons, List.mem_cons, not_or]
    by_cases h : key = k
    · simp [h]
    · rw [if_neg h, ih]
      exact (and_iff_right h).symm

theorem mem_of_lookup {t : Table α β} {key : α} {content : β} (h : t.lookup key = some content) :
    (key, content) ∈ t := by
  obtain ⟨before, after, rfl, -⟩ := List.lookup_eq_some_iff.1 h
  exact List.mem_append_right _ List.mem_cons_self

/-- Among keys with their places, a look-up finds the first place of a key. -/
theorem lookup_zipIdx (keys : List α) (key : α) :
    List.lookup key keys.zipIdx = keys.idxOf? key := by
  -- the places in a tail start further on
  have hfrom : ∀ (keys : List α) (start : Nat),
      List.lookup key (keys.zipIdx start) = (keys.idxOf? key).map (· + start) := by
    intro keys
    induction keys with
    | nil => simp
    | cons k keys ih =>
      intro start
      rw [List.zipIdx_cons, lookup_cons_eq_ite, List.idxOf?_cons, ih]
      by_cases h : key = k
      · simp [h]
      · have hbeq : (k == key) = false := by simpa using Ne.symm h
        rw [if_neg h, hbeq]
        cases keys.idxOf? key <;> simp [Nat.add_right_comm, Nat.add_assoc]
  rw [hfrom]
  cases keys.idxOf? key <;> rfl

end HeapReplay
