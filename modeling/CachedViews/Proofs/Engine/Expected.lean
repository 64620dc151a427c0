import CachedViews.Proofs.Engine.Calls
import CachedViews.Proofs.Engine.Forecast

/-
# Programs come to what is forecast

A regime (`Engine.Regime`) says what an engine looks up while it works, and which keys its
caches hold from the beginning. What is stored under a known key is what the lookup gives,
while the files may say something else by now. So under a regime with known keys all work
goes through the caches; where nothing is known, work may also go past them. Either way,
each program of an engine comes to the forecast of its job: to the same result, or to one
of the faults.

Key definitions: `Engine.Forecast.Admits`, `Engine.Regime`, `Engine.Regime.contract`.
Key theorems: `Engine.expects_bind`, `Engine.expects_load`, `Engine.expects_program`.
-/

namespace CachedViews.Engine

open Program

/-- The outcome of a job is what is forecast, up to a view `g` of its results. -/
def Forecast.Admits {α β : Type} (v : Forecast α) (g : β → α) : Except Fault β → Prop
  | .ok b => v = .ok (g b)
  | .error f => ∃ fs, v = .error fs ∧ f ∈ fs

/-- What an engine looks up, and the keys that its caches know from the beginning. -/
structure Regime where
  lookups : Lookups
  known : CacheName → String → Prop

namespace Regime

variable (R : Regime) (e : Engine)

/-- Work may go past the caches only where they know nothing. -/
def MayUse (cached : Bool) : Prop := cached = true ∨ ∀ c k, ¬R.known c k

/-- The jobs that may be started. -/
def allowed : Job → Prop
  | .list _ cached => R.MayUse cached
  | .walk dir => ¬R.known .directory dir
  | .read _ cached => R.MayUse cached
  | .open file => ¬R.known .file file
  | .template _ cached => R.MayUse cached
  | .compile _ cached => R.MayUse cached
  | .templates _ cached => R.MayUse cached
  | .source _ cached => R.MayUse cached
  | .partials _ cached => R.MayUse cached
  | .render _ _ options => R.MayUse options.cache
  | .view file options => ∀ plan, e.planView file options = .ok plan → R.MayUse plan.options.cache

/-- The answers of the surroundings: what is looked up, if it is not known. -/
def answer : (op : Op) → op.Answer → Prop
  | .walk dir, a => ¬R.known .directory dir → a.map Listing.paths = R.lookups.names dir
  | .open file, a => ¬R.known .file file → a = R.lookups.text file
  | .compile file text, a =>
    a.map Handle.value = e.compiler.compile e.config.compilerOptions file text

/-- A job ends as forecast. -/
def spec (job : Job) (o : Except Fault Product) : Prop :=
  (e.forecast R.lookups job).Admits Product.bare o

end Regime

/-- What a program of an engine comes to under a regime. -/
abbrev Expects {α β : Type} (e : Engine) (R : Regime) (p : Work β) (v : Forecast α) (g : β → α) :
    Prop :=
  Program.Ensures (σ := signature) (R.answer e) (R.allowed e) (R.spec e) p (v.Admits g)

variable {α β γ δ : Type} {e : Engine} {R : Regime} {cached : Bool}

/-! ### Parts of programs -/

theorem expects_bind {p : Work β} {f : β → Work δ} {v : Forecast α} {k : α → Forecast γ}
    {g : β → α} {g' : δ → γ} (hp : Expects e R p v g)
    (hf : ∀ b, v = .ok (g b) → Expects e R (f b) (k (g b)) g') :
    Expects e R (p >>= f) (v >>= k) g' := by
  refine Ensures.bind (hp.mono fun o ho => ⟨?_, ?_⟩)
  · rintro b rfl
    have hv : v = .ok (g b) := ho
    rw [hv]
    exact hf b hv
  · rintro f rfl
    obtain ⟨fs, hv, hmem⟩ := ho
    rw [hv]
    exact ⟨fs, rfl, hmem⟩

theorem expects_pure {b : β} {v : Forecast α} {g : β → α} (h : v = .ok (g b)) :
    Expects e R (pure b) v g :=
  h

theorem expects_fail {f : Fault} {v : Forecast α} {g : β → α} {fs : List Fault}
    (h : v = .error fs) (hf : f ∈ fs) : Expects e R (Program.fail f) v g :=
  ⟨fs, h, hf⟩

theorem expects_ofExcept (r : Except Fault α) : Expects e R (ofExcept r) (Forecast.of r) id := by
  cases r with
  | ok a => exact expects_pure rfl
  | error f => exact expects_fail rfl (List.mem_singleton_self f)

/-- Notes change nothing about the end. -/
theorem ensures_noteAll {answer : (op : Op) → op.Answer → Prop} {allowed : Job → Prop}
    {spec : Job → Except Fault Product → Prop} (ns : List Note) {f : Unit → Work β}
    {want : Except Fault β → Prop}
    (hf : Program.Ensures (σ := signature) answer allowed spec (f ()) want) :
    Program.Ensures (σ := signature) answer allowed spec (noteAll ns >>= f) want := by
  induction ns with
  | nil => exact hf
  | cons m ns ih => exact ih

theorem expects_note (m : Note) {f : Unit → Work β} {v : Forecast α} {g : β → α}
    (hf : Expects e R (f ()) v g) : Expects e R (note m >>= f) v g :=
  hf

theorem expects_await (op : Op) {f : op.Answer → Work β} {v : Forecast α} {g : β → α}
    (hf : ∀ a, R.answer e op a → Expects e R (f a) v g) :
    Expects e R (Program.await (σ := signature) op >>= f) v g :=
  hf

theorem expects_query (op : Op) {f : op.Answer → Work β} {v : Forecast α} {g : β → α}
    (hf : ∀ a, R.answer e op a → Expects e R (f a) v g) :
    Expects e R (Program.query (σ := signature) op >>= f) v g :=
  hf

/-- A cache gives what its job comes to. -/
theorem expects_cachedJob (c : CacheName) (k : String) :
    Expects e R (cachedJob c k (jobAt c k)) (e.forecast R.lookups (jobAt c k)) Product.bare :=
  ⟨fun _ hr => hr, fun _ hf => hf⟩

/-- Several jobs give what they all come to. -/
theorem expects_allJobs {jobs : List Job} (ha : ∀ job ∈ jobs, R.allowed e job) :
    Expects e R (allJobs jobs) (Forecast.all (jobs.map (e.forecast R.lookups)))
      (List.map Product.bare) := by
  refine ⟨ha, fun rs hrs => ?_, fun job hj f ⟨fs, hfs, hf⟩ => ?_⟩
  · exact Forecast.all_eq_ok (List.forall₂_map_right_iff.2 hrs)
  · obtain ⟨gs, hgs, hmem⟩ := Forecast.mem_faults_all hj hfs hf
    exact ⟨gs, hgs, hmem⟩

/-! ### Looking things up -/

theorem expects_walking {dir : String} (hn : ¬R.known .directory dir) :
    Expects e R (walking dir) (namesForecast R.lookups dir) Product.bare := by
  refine expects_await (Op.walk dir) fun answer ha => ?_
  have hnames := ha hn
  unfold namesForecast
  rw [← hnames]
  rcases answer with f | l
  · exact expects_note _ (expects_fail rfl (List.mem_singleton_self _))
  · exact ensures_noteAll _ (expects_note _ (expects_pure rfl))

theorem expects_listing {dir : String} (hu : R.MayUse cached) :
    Expects e R (listing dir cached) (namesForecast R.lookups dir) Product.bare := by
  cases cached with
  | true => exact expects_cachedJob .directory dir
  | false =>
    rcases hu with hu | hu
    · exact absurd hu (by decide)
    · exact expects_walking (hu .directory dir)

theorem expects_opening {file : String} (hn : ¬R.known .file file) :
    Expects e R (opening file) (textForecast R.lookups file) Product.bare := by
  refine expects_await (Op.open file) fun answer ha => ?_
  have htext := ha hn
  unfold textForecast
  rw [← htext]
  rcases answer with f | text
  · cases f with
    | unreadable f => exact expects_note _ (expects_fail rfl (List.mem_singleton_self _))
    | nullByte => exact expects_fail rfl (List.mem_singleton_self _)
  · exact expects_note _ (expects_pure rfl)

theorem expects_reading {file : String} (hu : R.MayUse cached) :
    Expects e R (reading file cached) (textForecast R.lookups file) Product.bare := by
  cases cached with
  | true => exact expects_cachedJob .file file
  | false =>
    rcases hu with hu | hu
    · exact absurd hu (by decide)
    · exact expects_opening (hu .file file)

theorem expects_compiling {file : String} (hu : R.MayUse cached) :
    Expects e R (compiling file cached) (e.compileForecast R.lookups file) Product.bare := by
  refine expects_bind (expects_reading hu) fun text _ => ?_
  refine expects_query (Op.compile file text.asText) fun answer ha => ?_
  have hmade : Except.map Handle.value answer =
      e.compiler.compile e.config.compilerOptions file text.asText := ha
  rw [Product.bare_asText, ← hmade]
  rcases answer with f | made
  · cases f with
    | malformedTemplate f => exact expects_note _ (expects_fail rfl (List.mem_singleton_self _))
    | _ => exact expects_fail rfl (List.mem_singleton_self _)
  · exact expects_note _ (expects_pure rfl)

theorem expects_template {file : String} (hu : R.MayUse cached) :
    Expects e R (template file cached) (e.compileForecast R.lookups file) Product.bare := by
  cases cached with
  | true => exact expects_cachedJob .template file
  | false => exact expects_compiling hu

/-! ### Partials -/

theorem expects_templatesBelow (dir : Value) (hu : R.MayUse cached) :
    Expects e R (e.templatesBelow dir cached) (e.templatesForecast R.lookups dir)
      Product.bare := by
  refine expects_bind (expects_ofExcept _) fun key _ => ?_
  refine expects_bind (expects_listing hu) fun names _ => ?_
  rw [Product.bare_asNames]
  have hjobs : ∀ job ∈ names.asNames.map fun f =>
      Job.template (.str (Path.join dir.text f)) cached, R.allowed e job := by
    intro job hj
    obtain ⟨f, -, rfl⟩ := List.mem_map.1 hj
    exact hu
  have hall := expects_allJobs hjobs
  rw [List.map_map] at hall
  refine expects_bind hall fun found _ => ?_
  have hfound : (found.map Product.bare).map Product.asTemplate =
      (found.map Product.asTemplate).map Handle.bare := by simp [Function.comp_def]
  refine expects_pure (congrArg (fun hs => Except.ok (Product.templates hs)) ?_)
  rw [hfound, bareTemplates_zip]

theorem expects_templatesOf (s : Source) (hu : R.MayUse cached) :
    Expects e R (e.templatesOf s cached) (e.sourceForecast R.lookups s) Product.bare := by
  cases s with
  | directory path n => exact expects_templatesBelow _ hu
  | templates v n => cases v <;> exact expects_pure rfl

theorem expects_aggregate (sources : Value) (hu : R.MayUse cached) :
    Expects e R (e.aggregate sources cached) (e.partialsForecast R.lookups sources)
      Product.bare := by
  refine expects_bind (expects_ofExcept _) fun resolved _ => ?_
  have hjobs : ∀ job ∈ resolved.map fun s => Job.source s cached, R.allowed e job := by
    intro job hj
    obtain ⟨s, -, rfl⟩ := List.mem_map.1 hj
    exact hu
  have hall := expects_allJobs hjobs
  rw [List.map_map] at hall
  refine expects_bind hall fun products _ => ?_
  have hmerge : merge e.config.extname (resolved.zip (products.map Product.bare)) [] =
      (merge e.config.extname (resolved.zip products) []).map bareTemplates := by
    rw [← merge_bare, List.zip_map_right]
    rfl
  rw [id_eq, hmerge]
  cases merge e.config.extname (resolved.zip products) [] with
  | ok merged => exact expects_note _ (expects_pure rfl)
  | error f => exact expects_fail rfl (List.mem_singleton_self f)

/-! ### Rendering -/

/-- What was loaded, without the number of a compilation. -/
def bareLoad (loaded : Handle × List (String × Value)) : Handle × List (String × Value) :=
  (loaded.1.bare, loaded.2)

theorem expects_load (file : Value) {o : RenderOptions} (hu : R.MayUse o.cache) :
    Expects e R (e.load file o) (e.loadForecast R.lookups file o) bareLoad := by
  unfold load loadForecast
  cases o.partials with
  | some ps =>
    refine expects_bind (expects_ofExcept _) fun key _ => ?_
    refine expects_bind (expects_template hu) fun found _ => expects_pure ?_
    rw [Product.bare_asTemplate]
    rfl
  | none =>
    have ha : ∀ sources, ∀ job ∈ [Job.template file o.cache, Job.partials sources o.cache],
        R.allowed e job := by
      intro sources job hj
      rcases List.mem_cons.1 hj with rfl | hj
      · exact hu
      · obtain rfl := List.mem_singleton.1 hj
        exact hu
    refine expects_bind (expects_allJobs (ha _)) fun found _ => ?_
    rcases found with _ | ⟨p, _ | ⟨q, _ | ⟨r, more⟩⟩⟩
    · exact expects_pure rfl
    · exact expects_pure rfl
    · refine expects_pure ?_
      simp only [List.map_cons, List.map_nil, Product.bare_asTemplate, Product.bare_asTemplates,
        partialValues_bare]
      rfl
    · exact expects_pure rfl

theorem expects_apply (h : Handle) (file context : Value) (o : RenderOptions)
    (partials : List (String × Value)) :
    Expects e R (e.apply h file context o partials)
      (Forecast.of (e.called h file context o partials)) id := by
  unfold apply called
  simp only [Forecast.of_bind]
  refine expects_bind (expects_ofExcept _) fun isNamed _ => ?_
  have hrest : ∀ m : Note, ∀ q : Work Value, ∀ v, Expects e R q v id →
      Expects e R (if isNamed then note m >>= fun _ => q else q) v (id : Value → Value) := by
    intro m q v hq
    split
    · exact expects_note m hq
    · exact hq
  refine hrest _ _ _ ?_
  refine expects_bind (expects_ofExcept _) fun key _ => ?_
  exact expects_bind (expects_ofExcept _) fun fields _ => expects_ofExcept _

theorem expects_render (file context : Value) {o : RenderOptions} (hu : R.MayUse o.cache) :
    Expects e R (e.render file context o) (e.renderForecast R.lookups file context o) id := by
  refine expects_bind (expects_load file hu) fun loaded _ => ?_
  exact expects_apply loaded.1 file context o loaded.2

theorem expects_view {file options : Value}
    (hu : ∀ plan, e.planView file options = .ok plan → R.MayUse plan.options.cache) :
    Expects e R (e.view file options) (e.viewForecast R.lookups file options) id := by
  refine expects_bind (expects_ofExcept _) fun plan hplan => ?_
  have hcache := hu plan (Forecast.of_eq_ok.1 hplan)
  refine expects_bind (expects_load file hcache) fun loaded _ => ?_
  refine expects_bind (expects_apply loaded.1 file _ plan.options loaded.2) fun body _ => ?_
  rw [id_eq]
  cases layoutPath e.cwd plan.layoutsDir e.config.extname plan.options.layout with
  | none => exact expects_pure rfl
  | some path =>
    refine expects_note _ ?_
    exact expects_bind (expects_render _ _ hcache) fun whole _ => expects_pure rfl

/-! ### Jobs -/

/-- **Programs come to what is forecast.** Each job that may be started comes to its forecast,
if the jobs that it waits for come to theirs. -/
theorem expects_program {job : Job} (ha : R.allowed e job) :
    Expects e R (e.program job) (e.forecast R.lookups job) Product.bare := by
  cases job with
  | list dir cached =>
    exact expects_bind (expects_ofExcept _) fun key _ => expects_listing ha
  | walk dir => exact expects_walking ha
  | read file cached =>
    exact expects_bind (expects_ofExcept _) fun key _ => expects_reading ha
  | «open» file => exact expects_opening ha
  | template file cached =>
    exact expects_bind (expects_ofExcept _) fun key _ => expects_template ha
  | compile file cached => exact expects_compiling ha
  | templates dir cached => exact expects_templatesBelow dir ha
  | source s cached => exact expects_templatesOf s ha
  | partials sources cached => exact expects_aggregate sources ha
  | render file context options =>
    exact expects_bind (expects_render file context ha) fun v _ => expects_pure rfl
  | view file options => exact expects_bind (expects_view ha) fun v _ => expects_pure rfl

/-- What is relied on under a regime, and what jobs come to. -/
def Regime.contract (R : Regime) (e : Engine) : Contract signature where
  program := e.program
  jobAt := jobAt
  rank := rank
  answer := R.answer e
  allowed := R.allowed e
  spec := R.spec e
  calls := calls_program e
  ensures _ ha := expects_program ha

end CachedViews.Engine
