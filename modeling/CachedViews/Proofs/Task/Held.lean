import CachedViews.Proofs.Task.Failures

/-
# Shared tasks stay stored unless they fail

A shared task is stored when it is started, where nothing was stored, and is removed when it
fails. As long as no cache is emptied, a shared task that has not failed is therefore the one
that is stored in its place (`Board.Held`), so that there is no second one
(`Board.Held.unique`).

Key definitions: `Board.Held`.
Key theorems: `Board.Held.move`, `Board.Held.unique`.
-/

namespace CachedViews.Board

variable {σ : Signature} [DecidableEq σ.Cache] {program : σ.Job → Program σ σ.Result}
  {w : World σ} {t u u' n : Nat} {p : Program σ σ.Result} {b b' : Board σ} {task : Task σ}
  {c : σ.Cache} {k : String}

/-- A task that was started for a key and has not failed. -/
structure Sound (b : Board σ) (c : σ.Cache) (k : String) (u : TaskId) : Prop where
  place : b.place? u = some (c, k)
  unfailed : ∀ f, b.outcome? u ≠ some (.error f)

/-- From the number `n` on, shared tasks that have not failed are stored in their places. -/
def Held (n : Nat) (b : Board σ) : Prop :=
  ∀ (u : Nat) (c : σ.Cache) (k : String), n ≤ u → Sound b c k u → b.stored? c k = some u

omit [DecidableEq σ.Cache] in
/-- A sound task was sound before, if there was one. -/
theorem Sound.before (h : Sound b' c k u) (hg : Grows b b') (hu : u < b.tasks.length) :
    Sound b c k u :=
  ⟨(hg.place? hu).symm.trans h.place, fun f ho => h.unfailed f (hg.outcome? ho)⟩

theorem held_length (b : Board σ) : Held b.tasks.length b :=
  fun _ _ _ hle hs => absurd (lt_of_place? hs.place) (Nat.not_lt.2 hle)

/-- There are no two sound tasks of one key. -/
theorem Held.unique (hb : Held n b) (hu : n ≤ u) (hs : Sound b c k u) (hu' : n ≤ u')
    (hs' : Sound b c k u') : u = u' :=
  Option.some.inj ((hb u c k hu hs).symm.trans (hb u' c k hu' hs'))

/-- A shared task that is new is stored in its place. -/
theorem stored?_run_new (ht : t < b.tasks.length) (hu : b.tasks.length ≤ u)
    (hp : (run w t p b).place? u = some (c, k)) : (run w t p b).stored? c k = some u := by
  rw [place?_run ht, if_neg (Nat.not_lt.2 hu)] at hp
  rw [stored?_run ht]
  cases hh : halt w b p with
  | storing c' k' job next =>
    rw [hh] at hp
    simp only [Option.ite_none_right_eq_some, Option.some.injEq, Prod.mk.injEq] at hp
    obtain ⟨rfl, rfl, rfl⟩ := hp
    simp
  | ended o => simp [hh] at hp
  | performing op next => simp [hh] at hp
  | joining s next => simp [hh] at hp
  | gathering jobs next => simp [hh] at hp

theorem Move.stored?_new (h : Move program w t b b') (hu : b.tasks.length ≤ u)
    (hp : b'.place? u = some (c, k)) : b'.stored? c k = some u := by
  cases h with
  | nothing => exact absurd (lt_of_place? hp) (Nat.not_lt.2 hu)
  | goesOn ht hc hgo => exact stored?_run_new (lt_of_getElem? ht) hu hp
  | dropped ht hc hf =>
    have hlt := lt_of_place? hp
    rw [setPhase, length_update] at hlt
    exact absurd hlt (Nat.not_lt.2 hu)
  | stopped ht hc hn ho hts =>
    exact stored?_run_new (by simpa using lt_of_getElem? ht) (by simpa using hu) hp

/-- **Sound tasks stay stored when tasks go on.** -/
theorem Held.move (hb : Held n b) (h : Move program w t b b') : Held n b' := by
  intro u c k hle hs
  by_cases hu : u < b.tasks.length
  · have hstored := hb u c k hle (hs.before h.grows hu)
    rcases h.stored_or_failed hstored with hs' | ⟨f, hf⟩
    · exact hs'
    · exact absurd hf (hs.unfailed f)
  · exact h.stored?_new (Nat.le_of_not_lt hu) hs.place

/-- Sound tasks stay stored where the entries stay and no shared task is new. -/
theorem Held.of_entries (hb : Held n b) (hg : Grows b b') (he : b'.entries = b.entries)
    (hn : ∀ u, b.tasks.length ≤ u → b'.place? u = none) : Held n b' := by
  intro u c k hle hs
  by_cases hu : u < b.tasks.length
  · exact (stored?_congr he c k).trans (hb u c k hle (hs.before hg hu))
  · have hnone := hn u (Nat.le_of_not_lt hu)
    rw [hs.place] at hnone
    cases hnone

theorem Held.spawn (hb : Held n b) (job : σ.Job) : Held n (b.spawn job).2 := by
  have ht : (b.spawn job).2.tasks = b.tasks ++ [{ job := job }] := rfl
  refine hb.of_entries (grows_of_append ht) rfl fun u hu => ?_
  unfold place?
  rw [ht, List.getElem?_append_right hu]
  cases hx : [({ job := job } : Task σ)][u - b.tasks.length]? with
  | none => rfl
  | some x =>
    obtain rfl := List.mem_singleton.1 (List.mem_of_getElem? hx)
    rfl

theorem Held.cancel (hb : Held n b) (t : TaskId) : Held n (b.cancel t).2 := by
  have hentries : (b.cancel t).2.entries = b.entries := by
    unfold Board.cancel
    split <;> rfl
  refine hb.of_entries (grows_cancel t b) hentries fun u hu => ?_
  have hlt : ¬u < (b.cancel t).2.tasks.length := by simpa using hu
  rw [place?, List.getElem?_eq_none (Nat.le_of_not_lt hlt)]
  rfl

end CachedViews.Board
