import CachedViews.Proofs.Task.Orderly
import Mathlib.Data.List.Nodup

/-
# The keys of the caches

Entries come and go, but no key of a cache is ever held by two entries (`Board.Distinct`): a
task is stored in the place of the one that was there. A new key comes in only with a task that
is stored, by a program that looked it up or from outside (`Board.Move.entries_cases`).

Key definitions: `Board.Distinct`.
Key theorems: `Board.Move.entries_cases`, `Board.Distinct.step`, `Board.Distinct.nodup_keys`.
-/

namespace CachedViews

variable {σ : Signature} [DecidableEq σ.Cache] {program : σ.Job → Program σ σ.Result}
  {w : World σ} {b b' : Board σ} {t s : TaskId} {c : σ.Cache} {k : String} {e : Entry σ}
  {es : List (Entry σ)}

/-- The cache and the key of an entry. -/
def Entry.place {σ : Signature} (e : Entry σ) : σ.Cache × String := (e.cache, e.key)

namespace Board

/-- No key of a cache is held twice. -/
def Distinct (b : Board σ) : Prop := (b.entries.map Entry.place).Nodup

/-! ### Storing and removing -/

theorem isAt_iff_place : e.isAt c k = true ↔ e.place = (c, k) := by
  simp [Entry.isAt, Entry.place]

/-- Storing adds a key at the end if it is new. -/
theorem map_place_store (c : σ.Cache) (k : String) (t : TaskId) (es : List (Entry σ)) :
    (store c k t es).map Entry.place =
      if (c, k) ∈ es.map Entry.place then es.map Entry.place
      else es.map Entry.place ++ [(c, k)] := by
  induction es with
  | nil => rfl
  | cons e es ih =>
    rw [store]
    by_cases he : e.isAt c k = true
    · have hplace := isAt_iff_place.1 he
      rw [if_pos he, List.map_cons, List.map_cons, hplace, if_pos List.mem_cons_self]
      rfl
    · have hne : (c, k) ≠ e.place := fun heq => he (isAt_iff_place.2 heq.symm)
      rw [if_neg he, List.map_cons, List.map_cons, ih]
      by_cases hmem : (c, k) ∈ es.map Entry.place
      · rw [if_pos hmem, if_pos (List.mem_cons_of_mem _ hmem)]
      · rw [if_neg hmem, if_neg (by simpa [hne] using hmem), List.cons_append]

theorem place_of_mem_store (h : e ∈ store c k t es) :
    e.place ∈ es.map Entry.place ∨ e.place = (c, k) := by
  have hmem := List.mem_map_of_mem (f := Entry.place) h
  rw [map_place_store] at hmem
  split at hmem
  · exact .inl hmem
  · simpa using hmem

omit [DecidableEq σ.Cache] in
theorem Distinct.of_sublist (hb : Distinct b) (h : b'.entries.Sublist b.entries) : Distinct b' :=
  hb.sublist (h.map _)

theorem Distinct.of_store (hb : Distinct b) (h : b'.entries = store c k t b.entries) :
    Distinct b' := by
  rw [Distinct, h, map_place_store]
  split
  · exact hb
  · next hnew => exact List.Nodup.append hb (List.nodup_singleton _) (by simpa using hnew)

/-! ### Steps -/

theorem sublist_evict (t : TaskId) (f : Fault) (b : Board σ) :
    (b.evict t f).entries.Sublist b.entries := by
  unfold evict
  split
  · split
    · exact List.filter_sublist
    · exact .refl _
  · exact .refl _

/-- Where a task comes to a stop, entries are removed at most, or the key that it looked up is
stored. -/
theorem entries_halt (h : Halt σ) (t : TaskId) (b : Board σ) :
    (h.entries t b).Sublist b.entries ∨
      ∃ c k job next, h = .storing c k job next ∧
        h.entries t b = store c k b.tasks.length b.entries := by
  cases h with
  | ended o =>
    cases o with
    | ok r => exact .inl (.refl _)
    | error f => exact .inl (sublist_evict t f b)
  | storing c k job next => exact .inr ⟨c, k, job, next, rfl, rfl⟩
  | _ => exact .inl (.refl _)

/-- In a move entries are removed at most, or the key that the task looks up is stored. -/
theorem Move.entries_cases (h : Move program w t b b') :
    b'.entries.Sublist b.entries ∨
      ∃ task p c k job next, b.tasks[t]? = some task ∧ GoesOn program w b task p ∧
        halt w b p = .storing c k job next ∧
          b'.entries = store c k b.tasks.length b.entries := by
  cases h with
  | nothing => exact .inl (.refl _)
  | @goesOn task p ht hc hp =>
    rw [entries_run (lt_of_getElem? ht)]
    refine (entries_halt (halt w b p) t b).imp id fun ⟨c, k, job, next, hh, he⟩ => ?_
    exact ⟨task, p, c, k, job, next, ht, hp, hh, he⟩
  | dropped ht hc hp => exact .inl (.refl _)
  | @stopped task ts ht hc hn ho hts =>
    obtain ⟨task', ht', -⟩ := getElem?_stopped ht ts
    refine .inl ?_
    rw [entries_run (lt_of_getElem? ht')]
    exact (sublist_evict t _ _).trans (by rw [entries_cancelAll])

theorem Distinct.move (hb : Distinct b) (h : Move program w t b b') : Distinct b' := by
  rcases h.entries_cases with hsub | ⟨-, -, c, k, -, -, -, -, -, he⟩
  · exact hb.of_sublist hsub
  · exact hb.of_store he

/-- **No step makes a cache hold a key twice.** -/
theorem Distinct.step (hb : Distinct b) (h : Step program b b') : Distinct b' := by
  cases h with
  | resume w t => exact hb.move (move_resume program w t b)
  | complete w t => exact hb.move (move_complete program w t b)
  | spawn job => exact hb
  | populate c k job => exact hb.of_store rfl
  | cancel t =>
    unfold Board.cancel
    split
    · exact hb
    · exact hb
  | invalidate c k => exact hb.of_sublist List.filter_sublist
  | clear c => exact hb.of_sublist List.filter_sublist

omit [DecidableEq σ.Cache] in
theorem distinct_empty : Distinct ({} : Board σ) := List.nodup_nil

theorem Distinct.nodup_keys (hb : Distinct b) (c : σ.Cache) : (b.keys c).Nodup := by
  have hfilter : ((b.entries.filter fun e => e.cache = c).map Entry.place).Nodup :=
    hb.sublist (List.filter_sublist.map _)
  refine List.Nodup.of_map (fun k => (c, k)) ?_
  rw [keys, List.map_map]
  refine (List.map_congr_left fun e he => ?_) ▸ hfilter
  simpa [Entry.place] using (List.mem_filter.1 he).2

theorem mem_keys : k ∈ b.keys c ↔ (c, k) ∈ b.entries.map Entry.place := by
  simp only [keys, Entry.place, List.mem_map, List.mem_filter, decide_eq_true_eq, Prod.mk.injEq]
  exact ⟨fun ⟨e, ⟨he, hc⟩, hk⟩ => ⟨e, he, hc, hk⟩, fun ⟨e, he, hc, hk⟩ => ⟨e, ⟨he, hc⟩, hk⟩⟩

end Board

end CachedViews
