/-!
# Lines and words

A heap log is cut into lines at newlines and into words at single spaces, and nowhere else: tabs,
carriage returns and the separators of Unicode are ordinary characters, and two neighbouring spaces
have an empty word between them.

**Nothing is lost by cutting.**  `intercalate_splitOn` puts the pieces back together, and
`splitOn_intercalate` says which pieces a joined text is cut into.

A file may end its lines in other ways; `unifyNewlines` brings them to the one that is cut at.
-/

namespace HeapReplay.Text

/-- The pieces of a text between the occurrences of a separator.  There is always at least one
piece, and pieces may be empty. -/
def splitOn (separator : Char) (text : String) : List String :=
  (text.toList.splitOn separator).map String.ofList

/-- The lines of a text, without their newlines. -/
def lines (text : String) : List String :=
  splitOn '\n' text

/-- The words of a line: what stands between single spaces. -/
def words (line : String) : List String :=
  splitOn ' ' line

/-- Words joined by single spaces. -/
def unwords (ws : List String) : String :=
  " ".intercalate ws

/-- Every carriage return, with the newline after it if there is one, becomes one newline. -/
def unifyNewlines : List Char → List Char
  | [] => []
  | '\r' :: '\n' :: rest => '\n' :: unifyNewlines rest
  | '\r' :: rest => '\n' :: unifyNewlines rest
  | c :: rest => c :: unifyNewlines rest

/-! ## Cutting and joining -/

theorem toList_intercalate_singleton (separator : Char) (pieces : List String) :
    ((String.singleton separator).intercalate pieces).toList
      = [separator].intercalate (pieces.map String.toList) := by
  rw [String.toList_intercalate, String.toList_singleton]

theorem intercalate_splitOn (separator : Char) (text : String) :
    (String.singleton separator).intercalate (splitOn separator text) = text := by
  apply String.toList_injective
  rw [toList_intercalate_singleton, splitOn, List.map_map, String.toList_comp_ofList, List.map_id,
    List.intercalate_splitOn]

theorem splitOn_intercalate {separator : Char} {pieces : List String}
    (hfree : ∀ p ∈ pieces, separator ∉ p.toList) (hne : pieces ≠ []) :
    splitOn separator ((String.singleton separator).intercalate pieces) = pieces := by
  have hfree' : ∀ l ∈ pieces.map String.toList, separator ∉ l := by simpa using hfree
  rw [splitOn, toList_intercalate_singleton, List.splitOn_intercalate _ hfree' (by simpa using hne),
    List.map_map, String.ofList_comp_toList, List.map_id]

theorem splitOn_ne_nil (separator : Char) (text : String) : splitOn separator text ≠ [] := by
  simp [splitOn]

/-- The words of a line, joined, are the line. -/
theorem unwords_words (line : String) : unwords (words line) = line :=
  intercalate_splitOn ' ' line

/-- Words without spaces survive joining and cutting. -/
theorem words_unwords {ws : List String} (hfree : ∀ w ∈ ws, ' ' ∉ w.toList) (hne : ws ≠ []) :
    words (unwords ws) = ws :=
  splitOn_intercalate hfree hne

end HeapReplay.Text
