/-
# Cutting texts at characters and at words

Texts are worked on as lists of characters. `splitOn` cuts at every occurrence
of one character and `joinWith` puts the pieces together again; cutting and
joining with the same character gives the text back (`joinWith_splitOn`), and
no piece holds the character (`not_mem_of_mem_splitOn`).

Key definitions: `splitOn`, `joinWith`, `dropSuffix?`, `cutAt?`.
Key theorems: `joinWith_splitOn`, `not_mem_of_mem_splitOn`.
-/

namespace CachedViews.Text

/-- The pieces of a text between the occurrences of `sep`. There is always at
least one piece: the empty text has the empty piece. -/
def splitOn (sep : Char) : List Char → List (List Char)
  | [] => [[]]
  | c :: r =>
    if c = sep then [] :: splitOn sep r
    else match splitOn sep r with
      | [] => [[c]]
      | w :: ws => (c :: w) :: ws

/-- The pieces in order with `sep` between two neighbours. -/
def joinWith (sep : List Char) : List (List Char) → List Char
  | [] => []
  | [w] => w
  | w :: ws => w ++ sep ++ joinWith sep ws

theorem splitOn_ne_nil (sep : Char) (s : List Char) : splitOn sep s ≠ [] := by
  cases s with
  | nil => simp [splitOn]
  | cons c r =>
    unfold splitOn
    split
    · simp
    · split <;> simp

/-- Cutting loses nothing. -/
theorem joinWith_splitOn (sep : Char) (s : List Char) : joinWith [sep] (splitOn sep s) = s := by
  induction s with
  | nil => rfl
  | cons c r ih =>
    unfold splitOn
    split
    · next h =>
      cases hs : splitOn sep r with
      | nil => exact absurd hs (splitOn_ne_nil sep r)
      | cons w ws =>
        rw [hs] at ih
        simp [joinWith, ih, h]
    · next h =>
      cases hs : splitOn sep r with
      | nil => exact absurd hs (splitOn_ne_nil sep r)
      | cons w ws =>
        rw [hs] at ih
        cases ws with
        | nil => simpa [joinWith] using ih
        | cons v vs => simpa [joinWith] using ih

/-- No piece holds the character that was cut at. -/
theorem not_mem_of_mem_splitOn (sep : Char) (s w : List Char) (h : w ∈ splitOn sep s) :
    sep ∉ w := by
  induction s generalizing w with
  | nil => simp [splitOn] at h; simp [h]
  | cons c r ih =>
    unfold splitOn at h
    split at h
    · rcases List.mem_cons.1 h with rfl | h
      · simp
      · exact ih w h
    · next hc =>
      split at h
      · next hs => exact absurd hs (splitOn_ne_nil sep r)
      · next v vs hs =>
        rcases List.mem_cons.1 h with rfl | h
        · have := ih v (by rw [hs]; simp)
          simp only [List.mem_cons, not_or]
          exact ⟨fun e => hc e.symm, this⟩
        · exact ih w (by rw [hs]; simp [h])

/-- The text without the ending `suffix`, when it ends so. -/
def dropSuffix? (suffix text : List Char) : Option (List Char) :=
  if suffix.isSuffixOf text then some (text.take (text.length - suffix.length)) else none

/-- The text after the beginning `start`, when it begins so. -/
def dropStart? : List Char → List Char → Option (List Char)
  | [], text => some text
  | _ :: _, [] => none
  | c :: start, d :: text => if c = d then dropStart? start text else none

/-- The part before the first occurrence of `word` and the part after it. -/
def cutAt? (word : List Char) : List Char → Option (List Char × List Char)
  | [] => if word.isEmpty then some ([], []) else none
  | c :: r =>
    match dropStart? word (c :: r) with
    | some rest => some ([], rest)
    | none => (cutAt? word r).map fun (before, after) => (c :: before, after)

/-- The text without the characters of a class at both ends. -/
def trim (p : Char → Bool) (s : List Char) : List Char :=
  ((s.dropWhile p).reverse.dropWhile p).reverse

/-- Does `word` occur in the text? -/
def contains (word text : List Char) : Bool := (cutAt? word text).isSome

/-- Line ends of every kind (`\r\n`, `\r`, `\n`) become `\n`. -/
def unifyNewlines : List Char → List Char
  | [] => []
  | '\r' :: '\n' :: r => '\n' :: unifyNewlines r
  | '\r' :: r => '\n' :: unifyNewlines r
  | c :: r => c :: unifyNewlines r

end CachedViews.Text
