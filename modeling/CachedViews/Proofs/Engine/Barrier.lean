import CachedViews.Proofs.Engine.Provenance

/-
# No old answers after a reset

When the caches are emptied, work may be in flight: tasks for all three caches that have
begun to walk or to read, that wait, or that have not run yet. They go on for those who wait
for them, and may start new tasks. But nothing that was begun before gets back into a cache,
and no one who looks up a key from then on is answered by it (`Engine.reset_is_barrier`). What
they get is what the files have said since (`Engine.LookedUpSince.forecast`).

Key definitions: `Engine.LookedUpSince`, `Engine.New`.
Key theorems: `Engine.Followed.new`, `Engine.LookedUpSince.forecast`, `Engine.reset_is_barrier`.
-/

namespace CachedViews.Engine

/-- The outcome of a task for a key was looked up since the desk `d₀`: a task that was started
since has walked or opened what belongs to the key since, and it is as in one of the trees
`later`, or it was made of a text of that kind. -/
inductive LookedUpSince (e : Engine) (later : FileTree → Prop) (d₀ d : Desk) :
    CacheName → String → TaskId → Except Fault Product → Prop
  | walked {dir : String} {s : TaskId} {o : Except Fault Product} (hs : d₀.tasks.length ≤ s)
      (ho : Board.outcome? (σ := signature) d s = some o)
      (hb : .began s (.walk dir) ∈ Board.eventsSince (σ := signature) d₀ d)
      (hf : e.ForecastIn later (.walk dir) o) : LookedUpSince e later d₀ d .directory dir s o
  | opened {file : String} {s : TaskId} {o : Except Fault Product} (hs : d₀.tasks.length ≤ s)
      (ho : Board.outcome? (σ := signature) d s = some o)
      (hb : .began s (.open file) ∈ Board.eventsSince (σ := signature) d₀ d)
      (hf : e.ForecastIn later (.open file) o) : LookedUpSince e later d₀ d .file file s o
  | compiled {file : String} {s s' : TaskId} {o o' : Except Fault Product}
      (ho : Board.outcome? (σ := signature) d s = some o)
      (ht : LookedUpSince e later d₀ d .file file s' o') (hm : e.MadeOf file o' o) :
      LookedUpSince e later d₀ d .template file s o

/-- A task for a key that is new since the desk `d₀`: neither it nor a task that it waits for
has begun anything before, and if it has ended, its outcome was looked up since. -/
structure New (e : Engine) (later : FileTree → Prop) (d₀ d : Desk) (c : CacheName) (k : String)
    (s : TaskId) : Prop where
  started : d₀.tasks.length ≤ s
  place : Board.place? (σ := signature) d s = some (c, k)
  unbegun : ∀ op : Op, .began s op ∉ d₀.journal
  waits : ∀ (task : Task signature) (s' : TaskId) (next : Product → Work Product),
    d.tasks[s]? = some task → task.phase = .joining s' next →
    d₀.tasks.length ≤ s' ∧ ∀ op : Op, .began s' op ∉ d₀.journal
  outcome : ∀ o, Board.outcome? (σ := signature) d s = some o → e.LookedUpSince later d₀ d c k s o

variable {e : Engine} {trees later : FileTree → Prop} {d₀ d d' : Desk} {c : CacheName}
  {k : String} {s : Nat} {o : Except Fault Product}

/-- What was looked up since is forecast for the key, with the files as they were since. -/
theorem LookedUpSince.forecast (h : e.LookedUpSince later d₀ d c k s o) :
    e.ForecastIn later (jobAt c k) o := by
  induction h with
  | walked hs ho hb hf => exact hf
  | opened hs ho hb hf => exact hf
  | compiled ho ht hm ih => exact ih.made hm

/-- **Sources are new** since a desk that stores nothing. -/
theorem Followed.new (h : e.Followed trees later d₀ d)
    (hempty : ∀ c k, Board.stored? (σ := signature) d₀ c k = none)
    (hs : Board.Source (σ := signature) d₀ d c k s) : e.New later d₀ d c k s := by
  have hle := hs.started (hempty c k)
  refine ⟨hle, hs.place, h.unbegun hle, fun task s' next ht hp => ?_, fun o ho => ?_⟩
  · rcases h.traced.sourced.joined s task s' next ht hp with ⟨c', k', hs'⟩ | ⟨y, hy, -⟩
    · have hle' := hs'.started (hempty _ _)
      exact ⟨hle', h.unbegun hle'⟩
    · exact absurd (Board.lt_of_getElem? hy) (Nat.not_lt.2 hle)
  · cases c with
    | directory =>
      obtain ⟨hb, hf⟩ := h.walked hle hs.place ho
      exact .walked hle ho hb hf
    | file =>
      obtain ⟨hb, hf⟩ := h.opened hle hs.place ho
      exact .opened hle ho hb hf
    | template =>
      -- the text comes from a source too
      obtain ⟨s', o', hs', ho', hm⟩ := h.compiled hle hs.place ho
      have hle' := hs'.started (hempty _ _)
      obtain ⟨hb, hf⟩ := h.opened hle' hs'.place ho'
      exact .compiled ho (.opened hle' ho' hb hf) hm

/-- **A reset is a barrier.** Whatever was in flight when the caches of an engine were emptied,
and whatever happened since: every task that is stored is new, that is it has begun nothing
before and what it gives was looked up since. So is every task that was found, or stored,
when a key was looked up since, and every shared task that someone waits for who did not wait
for it before. A request started since that looks up a listing, a text or a template ends
with what such a task gives, unless it was asked to stop. -/
theorem reset_is_barrier (hd : e.Reached trees d)
    (hr : Relation.ReflTransGen (e.Happens later) (reset d) d') :
    (∀ c k s, Board.stored? (σ := signature) d' c k = some s → e.New later (reset d) d' c k s) ∧
    (∀ c k s, Board.Found (Board.eventsSince (σ := signature) (reset d) d') c k s →
      e.New later (reset d) d' c k s) ∧
    (∀ (u : Nat) (task : Task signature) (s : Nat) (next : Product → Work Product),
      d'.tasks[u]? = some task → task.phase = .joining s next →
      (∃ c k, e.New later (reset d) d' c k s) ∨
        ∃ before, d.tasks[u]? = some before ∧ before.phase = task.phase) ∧
    ∀ (u : Nat) (task : Task signature) (c : CacheName) (k : String) (o : Except Fault Product),
      d.tasks.length ≤ u → d'.tasks[u]? = some task → e.lookupOf task.job = some (c, k) →
      task.phase = .ended o → task.cancelRequested = true ∨
        ∃ s, e.New later (reset d) d' c k s ∧ e.LookedUpSince later (reset d) d' c k s o := by
  have h : e.Followed trees later (reset d) d' := followed (hd.tail .reset) hr
  have hnew : ∀ c k s, Board.Source (σ := signature) (reset d) d' c k s →
      e.New later (reset d) d' c k s := fun c k s => h.new (stored?_reset d)
  have hsrc := h.traced.sourced
  refine ⟨fun c k s hs => hnew c k s (hsrc.stored c k s hs),
    fun c k s hf => hnew c k s (hsrc.found c k s hf), fun u task s next ht hp => ?_,
    fun u task c k o hu ht hj ho => ?_⟩
  · rcases hsrc.joined u task s next ht hp with ⟨c, k, hs⟩ | hold
    · exact .inl ⟨c, k, hnew c k s hs⟩
    · exact .inr hold
  · rcases hc : task.cancelRequested with _ | _
    · obtain ⟨s, hs, hso⟩ := h.answered hu ht hj hc ho
      exact .inr ⟨s, hnew c k s hs, (hnew c k s hs).outcome o hso⟩
    · exact .inl rfl

/-! ### A reset while a file is read -/

/-- A template was asked for, and the file is being read for it. -/
def readingDesk : Desk :=
  let d := (start (.template (.str "/v.html") true) {}).2
  [0, 1, 2].foldl (fun d t => sampleEngine.resume (sampleTree "a") t d) d

/-- The caches are emptied while a file is being read, the file is edited, and the template is
asked for again: the new text is read for it. -/
theorem reset_is_barrier_reading :
    let d' := sampleEngine.settle (sampleTree "b")
      (start (.template (.str "/v.html") true) (reset readingDesk)).2
    let later : FileTree → Prop := fun tree => tree = sampleTree "b"
    openCount readingDesk = 1 ∧
      (∃ s, Board.stored? (σ := signature) d' .template "/v.html" = some s ∧
        sampleEngine.New later (reset readingDesk) d' .template "/v.html" s) ∧
      (cached? d' .file "/v.html").map Product.asText = some "b" := by
  intro d' later
  have hd : sampleEngine.Reached (fun tree => tree = sampleTree "a") readingDesk := by
    have hstart : sampleEngine.Reached (fun tree => tree = sampleTree "a")
        (start (.template (.str "/v.html") true) {}).2 := .single (.start _)
    exact happens_resumes hstart rfl [0, 1, 2]
  have hr : Relation.ReflTransGen (sampleEngine.Happens later) (reset readingDesk) d' :=
    happens_settle (.single (.start _)) rfl
  obtain ⟨s, hs⟩ : ∃ s, Board.stored? (σ := signature) d' .template "/v.html" = some s :=
    Option.isSome_iff_exists.1 (by decide +kernel)
  exact ⟨by decide +kernel, ⟨s, hs, (reset_is_barrier hd hr).1 _ _ s hs⟩, by decide +kernel⟩

end CachedViews.Engine
