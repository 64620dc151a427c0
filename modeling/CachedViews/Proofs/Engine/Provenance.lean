import CachedViews.Proofs.Engine.Refinement
import CachedViews.Proofs.Task.Sources

/-
# Where the results of an engine come from

Fix a desk that an engine has come to, and let the files be as in one of several trees from
then on. What a task has walked or opened that was started since, is what one of these trees
says (`Engine.Followed.walked`, `Engine.Followed.opened`). A template that was made since was
made of the outcome of a source for its file (`Engine.Followed.compiled`), and a request that
looks up one key has the outcome of a source for that key (`Engine.Followed.answered`).

Key definitions: `Engine.ForecastIn`, `Engine.MadeOf`, `Engine.lookupOf`, `Engine.Followed`.
Key theorems: `Engine.Happens.onward`, `Engine.followed`, `Engine.Followed.walked`,
`Engine.Followed.opened`, `Engine.Followed.compiled`, `Engine.Followed.answered`.
-/

namespace CachedViews.Engine

variable {e : Engine} {trees trees' later : FileTree → Prop} {d₀ d d' : Desk} {tree : FileTree}
  {dir file : String} {s u : Nat} {o o' : Except Fault Product}

/-! ### What happens, step by step -/

theorem Happens.mono (h : ∀ tree, trees tree → trees' tree) (hd : e.Happens trees d d') :
    e.Happens trees' d d' := by
  cases hd with
  | start job => exact .start job
  | resume ht t => exact .resume (h _ ht) t
  | complete ht t => exact .complete (h _ ht) t
  | cancel t hp => exact .cancel t hp
  | reset => exact .reset

theorem Reached.mono (h : ∀ tree, trees tree → trees' tree) (hd : e.Reached trees d) :
    e.Reached trees' d :=
  Relation.ReflTransGen.mono (fun _ _ => Happens.mono h) _ _ hd

theorem quiet_reset (d : Desk) : Board.Quiet d (reset d) :=
  ((Board.quiet_clear _ d).trans (Board.quiet_clear _ _)).trans (Board.quiet_clear _ _)

/-- Whatever happens to a desk, work goes on. -/
theorem Happens.onward (h : e.Happens trees d d') :
    Board.Onward e.program (e.records trees).answer d d' := by
  cases h with
  | start job => exact .quiet (Board.quiet_spawn (σ := signature) job d)
  | resume ht t => exact .move (fun op => ⟨_, _, ht, rfl⟩) (Board.move_resume _ _ t d)
  | complete ht t => exact .move (fun op => ⟨_, _, ht, rfl⟩) (Board.move_complete _ _ t d)
  | cancel t hp => exact .quiet (Board.quiet_cancel t d)
  | reset => exact .quiet (quiet_reset d)

/-- The schedule that works until nothing is left to do goes on from where it begins. -/
theorem happens_settle {tree : FileTree} (hr : Relation.ReflTransGen (e.Happens later) d₀ d)
    (ht : later tree) : Relation.ReflTransGen (e.Happens later) d₀ (e.settle tree d) :=
  Board.settle_keeps (fun _ t hb => hb.tail (.resume ht t)) (fun _ t hb => hb.tail (.complete ht t))
    _ hr

theorem happens_resumes {tree : FileTree} (hr : Relation.ReflTransGen (e.Happens later) d₀ d)
    (ht : later tree) (ts : List Nat) :
    Relation.ReflTransGen (e.Happens later) d₀ (ts.foldl (fun d t => e.resume tree t d) d) := by
  induction ts generalizing d with
  | nil => exact hr
  | cons t ts ih => exact ih (hr.tail (.resume ht t))

/-! ### What programs make of answers -/

/-- The outcome is forecast for the job, with the files as in one of the trees. -/
def ForecastIn (e : Engine) (trees : FileTree → Prop) (job : Job) (o : Except Fault Product) :
    Prop :=
  ∃ tree, trees tree ∧ (e.forecast (lookupsOf (e.world tree 0)) job).Admits Product.bare o

/-- What compiling a text is to give. -/
def textCompiled (e : Engine) (file : String) (text : Product) : Forecast Product :=
  match e.compiler.compile e.config.compilerOptions file text.asText with
  | .ok v => .ok (.template ⟨none, v⟩)
  | .error (.malformedTemplate f) => .error [.view (.compiling file f)]
  | .error f => .error [f]

/-- What compiling a file comes to, when its text has the outcome `o'`. -/
def MadeOf (e : Engine) (file : String) : Except Fault Product → Except Fault Product → Prop
  | .ok text, o => (e.textCompiled file text).Admits Product.bare o
  | .error f, o => o = .error f

theorem ForecastIn.made (h : e.ForecastIn trees (.open file) o') (hm : e.MadeOf file o' o) :
    e.ForecastIn trees (.compile file true) o := by
  obtain ⟨tree, ht, ho'⟩ := h
  refine ⟨tree, ht, ?_⟩
  change Forecast.Admits (textForecast (lookupsOf (e.world tree 0)) file >>= e.textCompiled file)
    Product.bare o
  change Forecast.Admits (textForecast (lookupsOf (e.world tree 0)) file) Product.bare o' at ho'
  cases o' with
  | error f =>
    obtain rfl : o = .error f := hm
    obtain ⟨fs, hfs, hf⟩ := ho'
    rw [hfs]
    exact ⟨fs, rfl, hf⟩
  | ok text =>
    have htext : textForecast (lookupsOf (e.world tree 0)) file = .ok text.bare := ho'
    rw [htext]
    change Forecast.Admits (e.textCompiled file text.bare) Product.bare o
    unfold textCompiled
    rw [Product.bare_asText]
    exact hm

/-- What is left of walking a directory when it has been walked. -/
def afterWalking (dir : String) : Except FileFault Listing → Work Product
  | .ok l => do
    noteAll (l.cycles.map .cycle)
    note (.listed l.paths.length dir)
    return .names l.paths
  | .error f => do
    note (.listingFailed dir f)
    Program.fail (.view (.listing dir f))

/-- What is left of reading a file when it has been opened. -/
def afterOpening (file : String) : Except FileTree.OpenFault String → Work Product
  | .ok text => do
    note (.read text.length file)
    return .text text
  | .error (.unreadable f) => do
    note (.readingFailed file f)
    Program.fail (.view (.reading file f))
  | .error .nullByte => Program.fail (.value .nullByte)

theorem program_walk (e : Engine) (dir : String) :
    e.program (.walk dir) = .perform (Op.walk dir) (afterWalking dir) :=
  rfl

theorem program_open (e : Engine) (file : String) :
    e.program (.open file) = .perform (Op.open file) (afterOpening file) :=
  rfl

theorem program_compile (e : Engine) (file : String) : e.program (.compile file true) =
    .lookup CacheName.file file (Job.open file) (compileText file) :=
  rfl

/-- A program of an engine ends as is wanted, with the files as in one of the trees. -/
abbrev EndsIn (e : Engine) (trees : FileTree → Prop) (want : Except Fault Product → Prop)
    (p : Work Product) : Prop :=
  Program.Ends (σ := signature) (e.records trees).answer want p

theorem ends_noteAll {want : Except Fault Product → Prop}
    (ns : List Note) {f : Unit → Work Product} (hf : e.EndsIn trees want (f ())) :
    e.EndsIn trees want (noteAll ns >>= f) := by
  induction ns with
  | nil => exact hf
  | cons m ns ih => exact ih

theorem ends_afterWalking (a : Except FileFault Listing)
    (ha : (e.records trees).answer (Op.walk dir) a) :
    e.EndsIn trees (e.ForecastIn trees (.walk dir)) (afterWalking dir a) := by
  obtain ⟨tree, n, ht, rfl⟩ := ha
  have hforecast : e.forecast (lookupsOf (e.world tree 0)) (.walk dir) =
      match CachedViews.walk tree e.cwd dir e.config.extname with
      | .ok l => .ok (.names l.paths)
      | .error f => .error [.view (.listing dir f)] := by
    have hnames : (lookupsOf (e.world tree 0)).names dir =
        Except.map Listing.paths (CachedViews.walk tree e.cwd dir e.config.extname) := rfl
    change namesForecast _ dir = _
    unfold namesForecast
    rw [hnames]
    cases CachedViews.walk tree e.cwd dir e.config.extname <;> rfl
  change e.EndsIn trees _ (afterWalking dir (CachedViews.walk tree e.cwd dir e.config.extname))
  cases hw : CachedViews.walk tree e.cwd dir e.config.extname with
  | ok l =>
    rw [hw] at hforecast
    exact ends_noteAll _ ⟨tree, ht, hforecast⟩
  | error f =>
    rw [hw] at hforecast
    exact ⟨tree, ht, _, hforecast, List.mem_singleton_self _⟩

theorem ends_afterOpening (a : Except FileTree.OpenFault String)
    (ha : (e.records trees).answer (Op.open file) a) :
    e.EndsIn trees (e.ForecastIn trees (.open file)) (afterOpening file a) := by
  obtain ⟨tree, n, ht, rfl⟩ := ha
  have hforecast : e.forecast (lookupsOf (e.world tree 0)) (.open file) =
      match tree.openText e.cwd file with
      | .ok text => .ok (.text text)
      | .error (.unreadable f) => .error [.view (.reading file f)]
      | .error .nullByte => .error [.value .nullByte] := rfl
  change e.EndsIn trees _ (afterOpening file (tree.openText e.cwd file))
  rcases hw : tree.openText e.cwd file with (f | _) | text
  · rw [hw] at hforecast
    exact ⟨tree, ht, _, hforecast, List.mem_singleton_self _⟩
  · rw [hw] at hforecast
    exact ⟨tree, ht, _, hforecast, List.mem_singleton_self _⟩
  · rw [hw] at hforecast
    exact ⟨tree, ht, hforecast⟩

theorem ends_compileText (text : Product) :
    e.EndsIn trees (e.MadeOf file (.ok text)) (compileText file text) := by
  rintro a ⟨tree, n, ht, rfl⟩
  change e.EndsIn trees _ (afterCompiling file
    ((e.compiler.compile e.config.compilerOptions file text.asText).map fun v => ⟨some n, v⟩))
  have hmade : e.textCompiled file text =
      match e.compiler.compile e.config.compilerOptions file text.asText with
      | .ok v => .ok (.template ⟨none, v⟩)
      | .error (.malformedTemplate f) => .error [.view (.compiling file f)]
      | .error f => .error [f] := rfl
  cases hc : e.compiler.compile e.config.compilerOptions file text.asText with
  | ok v =>
    rw [hc] at hmade
    exact hmade
  | error f =>
    rw [hc] at hmade
    cases f <;> exact ⟨_, hmade, List.mem_singleton_self _⟩

/-- The key that a job looks up, if it does nothing else. -/
def lookupOf (e : Engine) : Job → Option (CacheName × String)
  | .list dir true => (e.keyOf dir).toOption.map (.directory, ·)
  | .read file true => (e.keyOf file).toOption.map (.file, ·)
  | .template file true => (e.keyOf file).toOption.map (.template, ·)
  | _ => none

theorem lookupOf_template {path : Value} (h : e.keyOf path = .ok file) :
    e.lookupOf (.template path true) = some (.template, file) := by
  simp [lookupOf, h, Except.toOption]

theorem program_lookup {job : Job} {c : CacheName} {k : String}
    (h : e.lookupOf job = some (c, k)) :
    e.program job = .lookup c k (jobAt c k) fun r => .done (.ok r) := by
  have hkey : ∀ {v : Value} {c' : CacheName},
      (e.keyOf v).toOption.map (Prod.mk c') = some (c, k) → e.keyOf v = .ok k ∧ c' = c := by
    intro v c' h
    cases hk : e.keyOf v with
    | error f => simp [hk, Except.toOption] at h
    | ok k' => simpa [hk, Except.toOption, and_comm] using h
  unfold lookupOf at h
  split at h
  · obtain ⟨hk, rfl⟩ := hkey h
    simp only [program, hk]
    rfl
  · obtain ⟨hk, rfl⟩ := hkey h
    simp only [program, hk]
    rfl
  · obtain ⟨hk, rfl⟩ := hkey h
    simp only [program, hk]
    rfl
  · cases h

/-! ### Since a desk -/

/-- The engine came from the desk `d₀`, which it had come to with the files as in `trees`, and
since then they were as in `later`. -/
structure Followed (e : Engine) (trees later : FileTree → Prop) (d₀ d : Desk) : Prop where
  recorded : e.Recorded (fun tree => trees tree ∨ later tree) d
  dated : Board.Dated d₀
  traced : Board.Traced e.program (e.records later).answer d₀ d

theorem dated_reached (hd : e.Reached trees d) : Board.Dated d := by
  induction hd with
  | refl => exact Board.dated_empty
  | tail _ hs ih => exact ih.onward hs.onward

/-- **What is followed stays followed, whatever happens.** -/
theorem Followed.happens (h : e.Followed trees later d₀ d) (hs : e.Happens later d d') :
    e.Followed trees later d₀ d' where
  recorded := h.recorded.happens (hs.mono fun _ => .inr)
  dated := h.dated
  traced := h.traced.onward hs.onward

theorem followed (hd : e.Reached trees d₀) (hr : Relation.ReflTransGen (e.Happens later) d₀ d) :
    e.Followed trees later d₀ d := by
  induction hr with
  | refl =>
    have hrec : e.Recorded (fun tree => trees tree ∨ later tree) d₀ :=
      (hd.mono fun _ => Or.inl).recorded
    exact ⟨hrec, dated_reached hd, .refl hrec.upheld.orderly⟩
  | tail _ hs ih => exact ih.happens hs

/-- A task that was started since has begun nothing before. -/
theorem Followed.unbegun (h : e.Followed trees later d₀ d) (hs : d₀.tasks.length ≤ s) (op : Op) :
    .began s op ∉ d₀.journal :=
  fun hb => absurd (h.dated s op hb) (Nat.not_lt.2 hs)

/-- What a task has begun that was started since, it has begun since. -/
theorem Followed.begun (h : e.Followed trees later d₀ d) (hs : d₀.tasks.length ≤ s) {op : Op}
    (hb : .began s op ∈ d.journal) : .began s op ∈ Board.eventsSince (σ := signature) d₀ d := by
  rw [h.traced.sourced.journal] at hb
  exact (List.mem_append.1 hb).resolve_right (h.unbegun hs op)

/-- The task of a key does the work that belongs there, and nobody asks it to stop. -/
theorem Followed.task_at (h : e.Followed trees later d₀ d) {c : CacheName} {k : String}
    (hp : Board.place? (σ := signature) d s = some (c, k)) :
    ∃ task, d.tasks[s]? = some task ∧ task.job = jobAt c k ∧ task.cancelRequested = false := by
  obtain ⟨task, ht, hpl⟩ := Option.bind_eq_some_iff.1 hp
  refine ⟨task, ht, h.recorded.upheld.placed s task c k (Nat.zero_le s) ht hpl, ?_⟩
  exact h.recorded.spared s task ht (by simp [hpl])

/-- The outcome of a new task for a key, if it performs one operation and ends. -/
theorem Followed.performed (h : e.Followed trees later d₀ d) (hs : d₀.tasks.length ≤ s)
    {c : CacheName} {k : String} (hp : Board.place? (σ := signature) d s = some (c, k))
    (ho : Board.outcome? (σ := signature) d s = some o) {op : Op}
    {next : op.Answer → Work Product} {want : Except Fault Product → Prop}
    (hprog : e.program (jobAt c k) = .perform op next)
    (hends : ∀ a, (e.records later).answer op a → e.EndsIn later want (next a)) :
    .began s op ∈ Board.eventsSince (σ := signature) d₀ d ∧ want o := by
  obtain ⟨task, ht, hj, hc⟩ := h.task_at hp
  obtain ⟨x, hx, hxo⟩ := Board.outcome?_eq_some.1 ho
  obtain rfl := Option.some.inj (ht.symm.trans hx)
  have hread := h.traced.reading s task op next want hs ht (by rw [hj]; exact hprog) hends
  rw [hxo, hc] at hread
  cases hread with
  | ended hend =>
    obtain ⟨hb, hwant⟩ := hend.resolve_left (by simp)
    exact ⟨h.begun hs hb, hwant⟩

/-- A listing that is walked by a new task is what one of the trees says. -/
theorem Followed.walked (h : e.Followed trees later d₀ d) (hs : d₀.tasks.length ≤ s)
    (hp : Board.place? (σ := signature) d s = some (.directory, dir))
    (ho : Board.outcome? (σ := signature) d s = some o) :
    .began s (.walk dir) ∈ Board.eventsSince (σ := signature) d₀ d ∧
      e.ForecastIn later (.walk dir) o :=
  h.performed hs hp ho (program_walk e dir) ends_afterWalking

/-- A text that is read by a new task is what one of the trees says. -/
theorem Followed.opened (h : e.Followed trees later d₀ d) (hs : d₀.tasks.length ≤ s)
    (hp : Board.place? (σ := signature) d s = some (.file, file))
    (ho : Board.outcome? (σ := signature) d s = some o) :
    .began s (.open file) ∈ Board.eventsSince (σ := signature) d₀ d ∧
      e.ForecastIn later (.open file) o :=
  h.performed hs hp ho (program_open e file) ends_afterOpening

/-- A template that is made by a new task is made of the outcome of a source for its file. -/
theorem Followed.compiled (h : e.Followed trees later d₀ d) (hs : d₀.tasks.length ≤ s)
    (hp : Board.place? (σ := signature) d s = some (.template, file))
    (ho : Board.outcome? (σ := signature) d s = some o) :
    ∃ s' o', Board.Source (σ := signature) d₀ d .file file s' ∧
      Board.outcome? (σ := signature) d s' = some o' ∧ e.MadeOf file o' o := by
  obtain ⟨task, ht, hj, hc⟩ := h.task_at hp
  obtain ⟨x, hx, hxo⟩ := Board.outcome?_eq_some.1 ho
  obtain rfl := Option.some.inj (ht.symm.trans hx)
  have hprog : e.program task.job =
      .lookup CacheName.file file (Job.open file) (compileText file) := by
    rw [hj]
    exact program_compile e file
  have hfind := h.traced.finding s task _ _ _ _ (e.MadeOf file) hs ht hprog ends_compileText
    fun f => rfl
  rw [hxo, hc] at hfind
  cases hfind with
  | ended hend => exact hend.resolve_left (by simp)

/-- A new request that looks up one key has the outcome of a source for that key, unless it
was asked to stop. -/
theorem Followed.answered (h : e.Followed trees later d₀ d) (hu : d₀.tasks.length ≤ u)
    {task : Task signature} (ht : d.tasks[u]? = some task) {c : CacheName} {k : String}
    (hj : e.lookupOf task.job = some (c, k)) (hc : task.cancelRequested = false)
    (ho : task.phase = .ended o) :
    ∃ s, Board.Source (σ := signature) d₀ d c k s ∧
      Board.outcome? (σ := signature) d s = some o := by
  have hfind := h.traced.finding u task c k _ _ (fun o' o => o = o') hu ht (program_lookup hj)
    (fun r => rfl) fun f => rfl
  rw [ho, hc] at hfind
  cases hfind with
  | ended hend =>
    obtain ⟨s, o', hs, ho', rfl⟩ := hend.resolve_left (by simp)
    exact ⟨s, hs, ho'⟩

end CachedViews.Engine
