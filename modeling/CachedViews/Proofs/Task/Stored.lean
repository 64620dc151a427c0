import CachedViews.Task.Board

/-
# What the caches of a board store

The entries of all caches stand in one list. What matters of them is the task
that is stored under a key (`Board.stored?`): storing a task puts it under its
key and under no other, removing a key empties it and no other, and clearing a
cache empties all its keys.

Key theorems: `Board.stored?_populate`, `Board.stored?_invalidate`,
`Board.stored?_clear`, `Board.stored?_evict`.
-/

namespace CachedViews.Board

variable {σ : Signature}

/-- The cache and the key that a task was started for. -/
def place? (b : Board σ) (t : TaskId) : Option (σ.Cache × String) := (b.tasks[t]?).bind (·.place)

variable [DecidableEq σ.Cache]

/-! ### Keys -/

theorem isAt_eq_true {c : σ.Cache} {k : String} {e : Entry σ} :
    e.isAt c k = true ↔ e.cache = c ∧ e.key = k := by
  simp [Entry.isAt]

theorem find?_store (c : σ.Cache) (k : String) (t : TaskId) (es : List (Entry σ)) (c' : σ.Cache)
    (k' : String) : (store c k t es).find? (Entry.isAt c' k') =
      if c = c' ∧ k = k' then some ⟨c, k, t⟩ else es.find? (Entry.isAt c' k') := by
  induction es with
  | nil =>
    by_cases h : c = c' ∧ k = k' <;> simp [store, Entry.isAt, h]
  | cons e es ih =>
    unfold store
    by_cases he : e.isAt c k = true
    · rw [if_pos he]
      obtain ⟨hc, hk⟩ := isAt_eq_true.1 he
      by_cases h : c = c' ∧ k = k' <;> simp [Entry.isAt, hc, hk, h]
    · rw [if_neg he, List.find?_cons, List.find?_cons, ih]
      by_cases h' : e.isAt c' k' = true
      · -- the entry of another key comes first in both lists
        have hne : ¬(c = c' ∧ k = k') := fun ⟨hc, hk⟩ => he (hc ▸ hk ▸ h')
        simp [h', hne]
      · simp [h']

theorem find?_erase (c : σ.Cache) (k : String) (es : List (Entry σ)) (c' : σ.Cache) (k' : String) :
    (erase c k es).find? (Entry.isAt c' k') =
      if c = c' ∧ k = k' then none else es.find? (Entry.isAt c' k') := by
  unfold erase
  rw [List.find?_filter]
  by_cases h : c = c' ∧ k = k'
  · obtain ⟨rfl, rfl⟩ := h
    simp
  · rw [if_neg h]
    congr 1
    funext e
    by_cases he : e.isAt c' k' = true
    · have hne : ¬e.isAt c k = true := fun h1 => by
        obtain ⟨a, b⟩ := isAt_eq_true.1 h1
        obtain ⟨a', b'⟩ := isAt_eq_true.1 he
        exact h ⟨a.symm.trans a', b.symm.trans b'⟩
      simp [he, hne]
    · simp [he]

theorem find?_clear (c : σ.Cache) (es : List (Entry σ)) (c' : σ.Cache) (k' : String) :
    (es.filter fun e => e.cache ≠ c).find? (Entry.isAt c' k') =
      if c = c' then none else es.find? (Entry.isAt c' k') := by
  rw [List.find?_filter]
  by_cases h : c = c'
  · subst h
    rw [if_pos rfl, List.find?_eq_none]
    intro e _ he
    simp only [decide_eq_true_eq] at he
    exact he.1 (isAt_eq_true.1 he.2).1
  · rw [if_neg h]
    congr 1
    funext e
    by_cases he : e.isAt c' k' = true
    · have hne : e.cache ≠ c := fun hc => h (hc.symm.trans (isAt_eq_true.1 he).1)
      simp [he, hne]
    · simp [he]

/-- What is stored depends on the entries alone. -/
theorem stored?_congr {b b' : Board σ} (h : b.entries = b'.entries) (c : σ.Cache) (k : String) :
    b.stored? c k = b'.stored? c k := by
  simp [stored?, h]

theorem stored?_populate (c : σ.Cache) (k : String) (job : σ.Job) (b : Board σ) (c' : σ.Cache)
    (k' : String) : (b.populate c k job).2.stored? c' k' =
      if c = c' ∧ k = k' then some b.tasks.length else b.stored? c' k' := by
  simp only [stored?, populate, find?_store]
  split <;> rfl

theorem stored?_invalidate (c : σ.Cache) (k : String) (b : Board σ) (c' : σ.Cache) (k' : String) :
    (b.invalidate c k).2.stored? c' k' = if c = c' ∧ k = k' then none else b.stored? c' k' := by
  simp only [stored?, invalidate, find?_erase]
  split <;> rfl

theorem stored?_clear (c : σ.Cache) (b : Board σ) (c' : σ.Cache) (k' : String) :
    (b.clear c).stored? c' k' = if c = c' then none else b.stored? c' k' := by
  simp only [stored?, clear, find?_clear]
  split <;> rfl

/-- A task that is stored under a new key comes last. -/
theorem store_of_not_stored {b : Board σ} {c : σ.Cache} {k : String} (h : b.stored? c k = none)
    (t : TaskId) : store c k t b.entries = b.entries ++ [⟨c, k, t⟩] := by
  have hnone : ∀ e ∈ b.entries, ¬e.isAt c k = true := by
    simpa [stored?] using h
  generalize b.entries = es at hnone
  induction es with
  | nil => rfl
  | cons e es ih =>
    rw [store, if_neg (hnone e (by simp)), ih fun e he => hnone e (by simp [he])]
    rfl

/-! ### Removing a task that failed -/

theorem evict_of_place {b : Board σ} {t : TaskId} {c : σ.Cache} {k : String}
    (hp : b.place? t = some (c, k)) (f : Fault) : b.evict t f =
      if b.stored? c k = some t then
        { b with entries := erase c k b.entries, journal := .evicted c k t f :: b.journal }
      else b := by
  unfold evict
  rw [show (b.tasks[t]?).bind (·.place) = some (c, k) from hp]

theorem evict_of_no_place {b : Board σ} {t : TaskId} (hp : b.place? t = none) (f : Fault) :
    b.evict t f = b := by
  unfold evict
  rw [show (b.tasks[t]?).bind (·.place) = none from hp]

/-- A task that failed is removed from its own place, if it is there, and nothing
else is. -/
theorem stored?_evict (t : TaskId) (f : Fault) (b : Board σ) (c : σ.Cache) (k : String) :
    (b.evict t f).stored? c k =
      if b.place? t = some (c, k) ∧ b.stored? c k = some t then none else b.stored? c k := by
  rcases hp : b.place? t with _ | ⟨c', k'⟩
  · rw [evict_of_no_place hp, if_neg (by simp)]
  · rw [evict_of_place hp]
    by_cases hs : b.stored? c' k' = some t
    · rw [if_pos hs]
      refine (stored?_congr rfl c k).trans ((stored?_invalidate c' k' b c k).trans ?_)
      by_cases h : c' = c ∧ k' = k
      · obtain ⟨rfl, rfl⟩ := h
        rw [if_pos ⟨rfl, rfl⟩, if_pos ⟨rfl, hs⟩]
      · rw [if_neg h, if_neg fun he => h (by simpa using he.1)]
    · rw [if_neg hs, if_neg]
      rintro ⟨he, hs'⟩
      obtain ⟨rfl, rfl⟩ : c' = c ∧ k' = k := by simpa using he
      exact hs hs'

end CachedViews.Board
