import CachedViews.Text.Split

/-
# Paths as components

A path is cut at its slashes. Resolving it against a working directory works on
a stack of components: an empty component and a single dot leave the stack
alone, two dots take one component off (at the root there is none to take), any
other component is put on. One leading slash is the root; exactly two leading
slashes are a root of their own, and three or more count as one.

Key definitions: `root`, `push`, `resolve`, `join`, `absolute`, `extension`,
`relative`.
Key theorems: `resolve_plain`, `resolve_of_plain`.
-/

namespace CachedViews.Components

open CachedViews.Text

/-- The slashes that a path starts with, as far as they mean something. -/
def root : List Char → List Char
  | '/' :: '/' :: '/' :: _ => ['/']
  | '/' :: '/' :: _ => ['/', '/']
  | '/' :: _ => ['/']
  | _ => []

/-- Does the path start at the root? -/
def isAbsolute : List Char → Bool
  | '/' :: _ => true
  | _ => false

/-- The working directory put in front of a path that is not absolute. -/
def join (directory path : List Char) : List Char :=
  if isAbsolute path then path
  else if directory = [] ∨ directory.getLast? = some '/' then directory ++ path
  else directory ++ '/' :: path

/-- A component that stays in a resolved path. -/
def isPlain (c : List Char) : Bool := c ≠ [] && c ≠ ['.'] && c ≠ ['.', '.'] && !c.contains '/'

/-- Put one more component on the stack, the last one first. -/
def push (stack : List (List Char)) (c : List Char) : List (List Char) :=
  if c = [] ∨ c = ['.'] then stack
  else if c = ['.', '.'] then stack.tail
  else c :: stack

/-- The components that are left when dots are worked off from the left. -/
def resolve (components : List (List Char)) : List (List Char) :=
  (components.foldl push []).reverse

/-- The components of a path with its dots worked off. -/
def parts (path : List Char) : List (List Char) := resolve (splitOn '/' path)

/-- The resolved form of a path, seen from the working directory. -/
def absolute (cwd path : List Char) : List Char :=
  let full := join cwd path
  root full ++ joinWith ['/'] (parts full)

/-- The text behind the last slash. -/
def base (path : List Char) : List Char := (path.reverse.takeWhile (· ≠ '/')).reverse

/-- The text before the last slash, without slashes at its end unless it has
nothing else. -/
def parent (path : List Char) : List Char :=
  let head := (path.reverse.dropWhile (· ≠ '/')).reverse
  if head.all (· = '/') then head else (head.reverse.dropWhile (· = '/')).reverse

/-- The extension with its dot: what the last component has from its last dot
on. Dots at the beginning of the component do not count. -/
def extension (path : List Char) : List Char :=
  let body := (base path).dropWhile (· = '.')
  if body.contains '.' then '.' :: (body.reverse.takeWhile (· ≠ '.')).reverse else []

/-- Two lists without their longest common beginning. -/
def dropCommon : List (List Char) → List (List Char) → List (List Char) × List (List Char)
  | a :: as, b :: bs => if a = b then dropCommon as bs else (a :: as, b :: bs)
  | as, bs => (as, bs)

/-- The way from `start` to `path`: up from `start`, then down. -/
def relative (cwd start path : List Char) : List Char :=
  let pieces (p : List Char) := (splitOn '/' (absolute cwd p)).filter (· ≠ [])
  let (up, down) := dropCommon (pieces start) (pieces path)
  match List.replicate up.length ['.', '.'] ++ down with
  | [] => ['.']
  | steps => joinWith ['/'] steps

theorem push_plain {stack : List (List Char)} {c : List Char}
    (hs : ∀ x ∈ stack, isPlain x = true) (hc : '/' ∉ c) :
    ∀ x ∈ push stack c, isPlain x = true := by
  intro x hx
  unfold push at hx
  split at hx
  · exact hs x hx
  · split at hx
    · exact hs x (List.mem_of_mem_tail hx)
    · rcases List.mem_cons.1 hx with rfl | hx
      · simp_all [isPlain]
      · exact hs x hx

theorem foldl_push_plain {cs stack : List (List Char)} (hs : ∀ x ∈ stack, isPlain x = true)
    (hc : ∀ c ∈ cs, '/' ∉ c) : ∀ x ∈ cs.foldl push stack, isPlain x = true := by
  induction cs generalizing stack with
  | nil => exact hs
  | cons c cs ih =>
    exact ih (push_plain hs (hc c (by simp))) fun d hd => hc d (by simp [hd])

/-- Only plain components are left. -/
theorem resolve_plain {cs : List (List Char)} (hc : ∀ c ∈ cs, '/' ∉ c) :
    ∀ x ∈ resolve cs, isPlain x = true := by
  intro x hx
  have hx' : x ∈ cs.foldl push [] := by simpa [resolve] using hx
  have h0 : ∀ y ∈ ([] : List (List Char)), isPlain y = true := by simp
  exact foldl_push_plain h0 hc x hx'

theorem foldl_push_of_plain (cs stack : List (List Char)) (hc : ∀ c ∈ cs, isPlain c = true) :
    cs.foldl push stack = cs.reverse ++ stack := by
  induction cs generalizing stack with
  | nil => rfl
  | cons c cs ih =>
    have h := hc c (by simp)
    have hp : push stack c = c :: stack := by simp_all [push, isPlain]
    simp [hp, ih (c :: stack) fun d hd => hc d (by simp [hd])]

/-- Plain components are left as they are. -/
theorem resolve_of_plain (cs : List (List Char)) (hc : ∀ c ∈ cs, isPlain c = true) :
    resolve cs = cs := by
  simp [resolve, foldl_push_of_plain cs [] hc]

end CachedViews.Components
