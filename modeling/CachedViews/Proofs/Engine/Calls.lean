import CachedViews.Proofs.Task.Contract
import CachedViews.Engine.Render

/-
# How the jobs of an engine call for each other

What a cache holds is the work that its name says (`Engine.jobAt`), and each job calls
for jobs of lower ranks only (`Engine.rank`): a view for templates and partials, partials
for sources, a template for its compilation, and a compilation for the text of its file.
So no job waits for itself.

Key definitions: `Engine.jobAt`, `Engine.rank`.
Key theorems: `Engine.calls_program`.
-/

namespace CachedViews.Engine

open Program

/-- The job that a cache holds under a key. -/
def jobAt : CacheName → String → Job
  | .directory, k => .walk k
  | .file, k => .open k
  | .template, k => .compile k true

/-- The rank of a job: it is above those of all jobs that it calls for. -/
def rank : Job → Nat
  | .walk _ => 0
  | .open _ => 0
  | .list _ _ => 1
  | .read _ _ => 1
  | .compile _ _ => 1
  | .template _ _ => 2
  | .templates _ _ => 3
  | .source _ _ => 4
  | .partials _ _ => 5
  | .render _ _ _ => 6
  | .view _ _ => 6

/-- The calls of a program of an engine. -/
abbrev CallsBelow {α : Type} (n : Nat) (p : Work α) : Prop :=
  Program.Calls (σ := signature) jobAt rank n p

variable {α β : Type} {n : Nat} {e : Engine}

/-! ### Parts of programs -/

theorem calls_bind {p : Work α} {f : α → Work β} (hp : CallsBelow n p)
    (hf : ∀ a, CallsBelow n (f a)) : CallsBelow n (p >>= f) :=
  Calls.bind hp hf

theorem calls_pure (a : α) : CallsBelow n (pure a : Work α) := trivial

theorem calls_ofExcept (r : Except Fault α) : CallsBelow n (ofExcept r : Work α) := trivial

theorem calls_fail (f : Fault) : CallsBelow n (Program.fail f : Work α) := trivial

theorem calls_note (m : Note) : CallsBelow n (note m) := trivial

theorem calls_noteAll (ns : List Note) : CallsBelow n (noteAll ns) := by
  induction ns with
  | nil => exact calls_pure ()
  | cons m ns ih => exact calls_bind (calls_note m) fun _ => ih

theorem calls_await (op : Op) {f : Op.Answer op → Work β} (hf : ∀ a, CallsBelow n (f a)) :
    CallsBelow n (Program.await (σ := signature) op >>= f) :=
  hf

theorem calls_query (op : Op) {f : Op.Answer op → Work β} (hf : ∀ a, CallsBelow n (f a)) :
    CallsBelow n (Program.query (σ := signature) op >>= f) :=
  hf

theorem calls_cachedJob (c : CacheName) (k : String) (h : rank (jobAt c k) < n) :
    CallsBelow n (cachedJob c k (jobAt c k)) :=
  ⟨rfl, h, fun _ => trivial⟩

theorem calls_allJobs {jobs : List Job} (h : ∀ job ∈ jobs, rank job < n) :
    CallsBelow n (allJobs jobs) :=
  ⟨h, fun _ => trivial⟩

/-! ### Looking things up -/

theorem calls_walking (dir : String) : CallsBelow n (walking dir) := by
  refine calls_await (Op.walk dir) fun answer => ?_
  rcases answer with f | l
  · exact calls_bind (calls_note _) fun _ => calls_fail _
  · exact calls_bind (calls_noteAll _) fun _ => calls_bind (calls_note _) fun _ => calls_pure _

theorem calls_listing (dir : String) (cached : Bool) (h : 0 < n) :
    CallsBelow n (listing dir cached) := by
  cases cached with
  | true => exact calls_cachedJob .directory dir h
  | false => exact calls_walking dir

theorem calls_opening (file : String) : CallsBelow n (opening file) := by
  refine calls_await (Op.open file) fun answer => ?_
  rcases answer with f | text
  · cases f with
    | unreadable f => exact calls_bind (calls_note _) fun _ => calls_fail _
    | nullByte => exact calls_fail _
  · exact calls_bind (calls_note _) fun _ => calls_pure _

theorem calls_reading (file : String) (cached : Bool) (h : 0 < n) :
    CallsBelow n (reading file cached) := by
  cases cached with
  | true => exact calls_cachedJob .file file h
  | false => exact calls_opening file

theorem calls_compiling (file : String) (cached : Bool) (h : 0 < n) :
    CallsBelow n (compiling file cached) := by
  refine calls_bind (calls_reading file cached h) fun text => ?_
  refine calls_query (Op.compile file text.asText) fun answer => ?_
  rcases answer with f | made
  · cases f with
    | malformedTemplate f => exact calls_bind (calls_note _) fun _ => calls_fail _
    | _ => exact calls_fail _
  · exact calls_bind (calls_note _) fun _ => calls_pure _

theorem calls_template (file : String) (cached : Bool) (h : 1 < n) :
    CallsBelow n (template file cached) := by
  cases cached with
  | true => exact calls_cachedJob .template file h
  | false => exact calls_compiling file false (by omega)

/-! ### Partials -/

theorem calls_templatesBelow (e : Engine) (dir : Value) (cached : Bool) (h : 2 < n) :
    CallsBelow n (e.templatesBelow dir cached) := by
  refine calls_bind (calls_ofExcept _) fun key => ?_
  refine calls_bind (calls_listing key cached (by omega)) fun names => ?_
  refine calls_bind (calls_allJobs fun job hj => ?_) fun found => calls_pure _
  obtain ⟨f, -, rfl⟩ := List.mem_map.1 hj
  exact h

theorem calls_templatesOf (e : Engine) (s : Source) (cached : Bool) (h : 2 < n) :
    CallsBelow n (e.templatesOf s cached) := by
  unfold templatesOf
  split
  · exact calls_templatesBelow e _ cached h
  · exact calls_pure _
  · exact calls_pure _

theorem calls_aggregate (e : Engine) (sources : Value) (cached : Bool) (h : 4 < n) :
    CallsBelow n (e.aggregate sources cached) := by
  refine calls_bind (calls_ofExcept _) fun resolved => ?_
  refine calls_bind (calls_allJobs fun job hj => ?_) fun products => ?_
  · obtain ⟨s, -, rfl⟩ := List.mem_map.1 hj
    exact h
  · refine calls_bind (calls_ofExcept _) fun merged => ?_
    exact calls_bind (calls_note _) fun _ => calls_pure _

/-! ### Rendering -/

theorem calls_load (e : Engine) (file : Value) (o : RenderOptions) (h : 5 < n) :
    CallsBelow n (e.load file o) := by
  unfold load
  split
  · refine calls_bind (calls_ofExcept _) fun key => ?_
    exact calls_bind (calls_template key o.cache (by omega)) fun found => calls_pure _
  · refine calls_bind (calls_allJobs fun job hj => ?_) fun found => ?_
    · rcases List.mem_cons.1 hj with rfl | hj
      · exact Nat.lt_trans (by decide : 2 < 5) h
      · obtain rfl := List.mem_singleton.1 hj
        exact h
    · split
      · exact calls_pure _
      · exact calls_pure _

theorem calls_apply (e : Engine) (made : Handle) (file context : Value) (o : RenderOptions)
    (partials : List (String × Value)) : CallsBelow n (e.apply made file context o partials) := by
  refine calls_bind (calls_ofExcept _) fun isNamed => ?_
  have hnoted : ∀ (m : Note) (q : Work Value), CallsBelow n q →
      CallsBelow n (if isNamed then note m >>= fun _ => q else q) := by
    intro m q hq
    split
    · exact calls_bind (calls_note m) fun _ => hq
    · exact hq
  refine hnoted _ _ (calls_bind (calls_ofExcept _) fun key => ?_)
  exact calls_bind (calls_ofExcept _) fun fields => calls_ofExcept _

theorem calls_render (e : Engine) (file context : Value) (o : RenderOptions) (h : 5 < n) :
    CallsBelow n (e.render file context o) :=
  calls_bind (calls_load e file o h) fun found => calls_apply e found.1 file context o found.2

theorem calls_view (e : Engine) (file options : Value) (h : 5 < n) :
    CallsBelow n (e.view file options) := by
  refine calls_bind (calls_ofExcept _) fun plan => ?_
  refine calls_bind (calls_load e file plan.options h) fun found => ?_
  refine calls_bind (calls_apply e found.1 file _ plan.options found.2) fun body => ?_
  split
  · exact calls_pure _
  · refine calls_bind (calls_note _) fun _ => ?_
    exact calls_bind (calls_render e _ _ _ h) fun whole => calls_pure _

/-! ### Jobs -/

/-- **The programs of an engine call for jobs of lower ranks only**, and look up under a key
what belongs there. -/
theorem calls_program (e : Engine) (job : Job) : CallsBelow (rank job) (e.program job) := by
  cases job with
  | list dir cached =>
    exact calls_bind (calls_ofExcept _) fun key => calls_listing key cached (by simp [rank])
  | walk dir => exact calls_walking dir
  | read file cached =>
    exact calls_bind (calls_ofExcept _) fun key => calls_reading key cached (by simp [rank])
  | «open» file => exact calls_opening file
  | template file cached =>
    exact calls_bind (calls_ofExcept _) fun key => calls_template key cached (by simp [rank])
  | compile file cached => exact calls_compiling file cached (by simp [rank])
  | templates dir cached => exact calls_templatesBelow e dir cached (by simp [rank])
  | source s cached => exact calls_templatesOf e s cached (by simp [rank])
  | partials sources cached => exact calls_aggregate e sources cached (by simp [rank])
  | render file context options =>
    exact calls_bind (calls_render e file context options (by simp [rank])) fun v => calls_pure _
  | view file options =>
    exact calls_bind (calls_view e file options (by simp [rank])) fun v => calls_pure _

end CachedViews.Engine
