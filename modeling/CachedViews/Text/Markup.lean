/-
# Escaping text for markup

Five characters have a meaning in markup and are replaced by a reference; every
other character stands for itself. The reference of a character holds none of
the four characters that could open or close a tag or an attribute
(`not_special_mem_escape`).

Key definitions: `reference?`, `escape`.
Key theorems: `escape_append`, `not_special_mem_escape`.
-/

namespace CachedViews.Text

/-- The reference that stands for a character with a meaning of its own. -/
def reference? : Char → Option (List Char)
  | '&' => some ['&', 'a', 'm', 'p', ';']
  | '<' => some ['&', 'l', 't', ';']
  | '>' => some ['&', 'g', 't', ';']
  | '\'' => some ['&', '#', '3', '9', ';']
  | '"' => some ['&', '#', '3', '4', ';']
  | _ => none

/-- The text with every special character replaced by its reference. -/
def escape (s : List Char) : List Char := s.flatMap fun c => (reference? c).getD [c]

@[simp] theorem escape_nil : escape [] = [] := rfl

@[simp] theorem escape_append (s t : List Char) : escape (s ++ t) = escape s ++ escape t := by
  simp [escape]

/-- The characters that could open or close a tag or an attribute. -/
def isSpecial (c : Char) : Bool := c = '<' || c = '>' || c = '\'' || c = '"'

theorem reference?_plain {c : Char} {r : List Char} (h : reference? c = some r) :
    r.all (fun d => !isSpecial d) = true := by
  unfold reference? at h
  split at h <;> first | (cases h; rfl) | cases h

/-- An escaped text opens and closes nothing. -/
theorem not_special_mem_escape (s : List Char) (c : Char) (h : c ∈ escape s) :
    isSpecial c = false := by
  simp only [escape, List.mem_flatMap] at h
  obtain ⟨d, _, hc⟩ := h
  cases hr : reference? d with
  | some r =>
    have := List.all_eq_true.1 (reference?_plain hr) c (by simpa [hr] using hc)
    simpa using this
  | none =>
    have hcd : c = d := by simpa [hr] using hc
    subst hcd
    unfold reference? at hr
    split at hr <;> simp_all [isSpecial]

/-- `escape` on strings. -/
def escapeString (s : String) : String := String.ofList (escape s.toList)

end CachedViews.Text
