import CachedViews.Proofs.Task.Usage
import CachedViews.Proofs.Engine.Uncached

/-
# The choice of caches reaches all work

Whether caches are used is chosen with a request (`Engine.Chooses`), and the choice reaches
all that its program starts: the view, the sources of partials, the files of each listing, and
the layout. With caches it performs no operation itself, but looks keys up. Without them
it looks nothing up (`Engine.uses_program`).

Key definitions: `Engine.Chooses`, `Engine.usageOf`, `Engine.UsesIn`.
Key theorems: `Engine.uses_program`.
-/

namespace CachedViews.Engine

open Program

/-- A request that chooses to use caches, or not to. What the caches hold is not requested. -/
def Chooses (cached : Bool) : Job → Prop
  | .list _ c => c = cached
  | .walk _ => False
  | .read _ c => c = cached
  | .open _ => False
  | .template _ c => c = cached
  | .compile _ _ => False
  | .templates _ c => c = cached
  | .source _ c => c = cached
  | .partials _ c => c = cached
  | .render _ _ o => o.cache = cached
  | .view _ options => Caches options ↔ cached = true

/-- The operation that is over when the note is left, if it went well: the cache that keeps
its result, and the key. -/
def Note.succeeded? : Note → Option (CacheName × String)
  | .listed _ dir => some (.directory, dir)
  | .read _ file => some (.file, file)
  | .compiled file => some (.template, file)
  | _ => none

/-- What requests make use of. -/
def usageOf (cached : Bool) : Usage signature where
  notes n := cached = true → Note.succeeded? n = none
  ops _ := cached = false
  keys _ _ := cached = true
  jobs := Chooses cached

/-- A program of an engine that makes use of no more. -/
abbrev UsesIn {α : Type} (U : Usage signature) (p : Work α) : Prop :=
  Program.Uses (σ := signature) U p

/-- A program that makes use of no more than requests do. -/
abbrev UsesAs {α : Type} (cached : Bool) (p : Work α) : Prop :=
  UsesIn (usageOf cached) p

variable {α β : Type} {U : Usage signature} {cached : Bool} {e : Engine}

/-! ### Parts of programs -/

theorem uses_bind {p : Work α} {f : α → Work β} (hp : UsesIn U p)
    (hf : ∀ a, UsesIn U (f a)) : UsesIn U (p >>= f) :=
  Uses.bind hp hf

theorem uses_pure (a : α) : UsesIn U (pure a : Work α) := trivial

theorem uses_ofExcept (r : Except Fault α) : UsesIn U (ofExcept r : Work α) := trivial

theorem uses_ofExcept_bind {r : Except Fault α} {f : α → Work β}
    (hf : ∀ a, r = .ok a → UsesIn U (f a)) : UsesIn U (ofExcept r >>= f) := by
  cases r with
  | ok a => exact hf a rfl
  | error e => trivial

theorem uses_fail (f : Fault) : UsesIn U (Program.fail f : Work α) := trivial

theorem uses_note {m : Note} (h : U.notes m) : UsesIn U (note m) := ⟨h, trivial⟩

theorem uses_noteAll {ns : List Note} (h : ∀ m ∈ ns, U.notes m) : UsesIn U (noteAll ns) := by
  induction ns with
  | nil => exact uses_pure ()
  | cons m ns ih =>
    refine uses_bind (uses_note (h m List.mem_cons_self)) fun _ => ih fun m' hm => ?_
    exact h m' (List.mem_cons_of_mem m hm)

theorem uses_cachedJob {c : CacheName} {k : String} (job : Job) (h : U.keys c k) :
    UsesIn U (cachedJob c k job) :=
  ⟨h, fun _ => trivial⟩

theorem uses_allJobs {jobs : List Job} (h : ∀ job ∈ jobs, U.jobs job) :
    UsesIn U (allJobs jobs) :=
  ⟨h, fun _ => trivial⟩

theorem uses_await {op : Op} {f : Op.Answer op → Work β} (h : U.ops op)
    (hf : ∀ a, UsesIn U (f a)) : UsesIn U (Program.await (σ := signature) op >>= f) :=
  ⟨h, hf⟩

theorem uses_query {op : Op} {f : Op.Answer op → Work β} (h : U.ops op)
    (hf : ∀ a, UsesIn U (f a)) : UsesIn U (Program.query (σ := signature) op >>= f) :=
  ⟨h, hf⟩

/-! ### Looking things up -/

theorem uses_walking {dir : String} (hn : ∀ m, U.notes m) (h : U.ops (.walk dir)) :
    UsesIn U (walking dir) := by
  refine uses_await h fun answer => ?_
  rcases answer with f | l
  · exact uses_bind (uses_note (hn _)) fun _ => uses_fail _
  · refine uses_bind (uses_noteAll fun m _ => hn m) fun _ => ?_
    exact uses_bind (uses_note (hn _)) fun _ => uses_pure _

theorem uses_opening {file : String} (hn : ∀ m, U.notes m) (h : U.ops (.open file)) :
    UsesIn U (opening file) := by
  refine uses_await h fun answer => ?_
  rcases answer with f | text
  · cases f with
    | unreadable f => exact uses_bind (uses_note (hn _)) fun _ => uses_fail _
    | nullByte => exact uses_fail _
  · exact uses_bind (uses_note (hn _)) fun _ => uses_pure _

theorem uses_compiling {file : String} (hn : ∀ m, U.notes m)
    (hr : UsesIn U (reading file cached)) (h : ∀ text, U.ops (.compile file text)) :
    UsesIn U (compiling file cached) := by
  refine uses_bind hr fun text => ?_
  refine uses_query (h _) fun answer => ?_
  rcases answer with f | made
  · cases f with
    | malformedTemplate f => exact uses_bind (uses_note (hn _)) fun _ => uses_fail _
    | _ => exact uses_fail _
  · exact uses_bind (uses_note (hn _)) fun _ => uses_pure _

/-- Requests that do not use caches leave any notes. -/
theorem notes_uncached (m : Note) : (usageOf false).notes m := nofun

theorem uses_listing (dir : String) (cached : Bool) : UsesAs cached (listing dir cached) := by
  cases cached with
  | true => exact uses_cachedJob _ rfl
  | false => exact uses_walking notes_uncached rfl

theorem uses_reading (file : String) (cached : Bool) : UsesAs cached (reading file cached) := by
  cases cached with
  | true => exact uses_cachedJob _ rfl
  | false => exact uses_opening notes_uncached rfl

theorem uses_template (file : String) (cached : Bool) : UsesAs cached (template file cached) := by
  cases cached with
  | true => exact uses_cachedJob _ rfl
  | false => exact uses_compiling notes_uncached (uses_reading file false) fun _ => rfl

/-! ### Partials -/

theorem uses_templatesBelow (e : Engine) (dir : Value) (cached : Bool) :
    UsesAs cached (e.templatesBelow dir cached) := by
  refine uses_bind (uses_ofExcept _) fun key => ?_
  refine uses_bind (uses_listing key cached) fun names => ?_
  refine uses_bind (uses_allJobs fun job hj => ?_) fun found => uses_pure _
  obtain ⟨f, -, rfl⟩ := List.mem_map.1 hj
  exact rfl

theorem uses_templatesOf (e : Engine) (s : Source) (cached : Bool) :
    UsesAs cached (e.templatesOf s cached) := by
  unfold templatesOf
  split
  · exact uses_templatesBelow e _ cached
  · exact uses_pure _
  · exact uses_pure _

theorem uses_aggregate (e : Engine) (sources : Value) (cached : Bool) :
    UsesAs cached (e.aggregate sources cached) := by
  refine uses_bind (uses_ofExcept _) fun resolved => ?_
  refine uses_bind (uses_allJobs fun job hj => ?_) fun products => ?_
  · obtain ⟨s, -, rfl⟩ := List.mem_map.1 hj
    exact rfl
  · refine uses_bind (uses_ofExcept _) fun merged => ?_
    exact uses_bind (uses_note fun _ => rfl) fun _ => uses_pure _

/-! ### Rendering -/

theorem uses_load (e : Engine) (file : Value) (o : RenderOptions) :
    UsesAs o.cache (e.load file o) := by
  unfold load
  split
  · refine uses_bind (uses_ofExcept _) fun key => ?_
    exact uses_bind (uses_template key o.cache) fun found => uses_pure _
  · refine uses_bind (uses_allJobs fun job hj => ?_) fun found => ?_
    · rcases List.mem_cons.1 hj with rfl | hj
      · exact rfl
      · obtain rfl := List.mem_singleton.1 hj
        exact rfl
    · split
      · exact uses_pure _
      · exact uses_pure _

theorem uses_apply (e : Engine) (made : Handle) (file context : Value) (o : RenderOptions)
    (partials : List (String × Value)) (hn : ∀ text, U.notes (.variableReplaced text)) :
    UsesIn U (e.apply made file context o partials) := by
  refine uses_bind (uses_ofExcept _) fun isNamed => ?_
  have hnoted : ∀ (text : String) (q : Work Value), UsesIn U q →
      UsesIn U (if isNamed then note (.variableReplaced text) >>= fun _ => q else q) := by
    intro text q hq
    split
    · exact uses_bind (uses_note (hn text)) fun _ => hq
    · exact hq
  refine hnoted _ _ (uses_bind (uses_ofExcept _) fun key => ?_)
  exact uses_bind (uses_ofExcept _) fun fields => uses_ofExcept _

theorem uses_render (e : Engine) (file context : Value) (o : RenderOptions) :
    UsesAs o.cache (e.render file context o) :=
  uses_bind (uses_load e file o) fun found =>
    uses_apply e found.1 file context o found.2 fun _ _ => rfl

theorem uses_view (e : Engine) (file options : Value) (h : Caches options ↔ cached = true) :
    UsesAs cached (e.view file options) := by
  refine uses_ofExcept_bind fun plan hp => ?_
  -- the choice of the options is that of the plan
  have hcache : plan.options.cache = cached := by
    rw [caches_iff hp] at h
    exact Bool.eq_iff_iff.2 h
  subst hcache
  refine uses_bind (uses_load e file plan.options) fun found => ?_
  refine uses_bind (uses_apply e found.1 file _ plan.options found.2 fun _ _ => rfl) fun body => ?_
  split
  · exact uses_pure _
  · refine uses_bind (uses_note fun _ => rfl) fun _ => ?_
    have hlayout := uses_render e (.str ‹_›)
      (.dict (Value.insertEntry (.str "body") body plan.context))
      { plan.options with layout := none, partials := some found.2 }
    exact uses_bind hlayout fun whole => uses_pure _

/-! ### Requests -/

/-- **The choice of caches reaches all work.** A request that chooses to use caches performs no
operation and starts requests that use caches, and one that chooses not to looks nothing up
and starts requests that do not use caches. -/
theorem uses_program (e : Engine) {job : Job} (h : Chooses cached job) :
    UsesAs cached (e.program job) := by
  cases job with
  | list dir c =>
    obtain rfl : c = cached := h
    exact uses_bind (uses_ofExcept _) fun key => uses_listing key c
  | walk dir => exact h.elim
  | read file c =>
    obtain rfl : c = cached := h
    exact uses_bind (uses_ofExcept _) fun key => uses_reading key c
  | «open» file => exact h.elim
  | template file c =>
    obtain rfl : c = cached := h
    exact uses_bind (uses_ofExcept _) fun key => uses_template key c
  | compile file c => exact h.elim
  | templates dir c =>
    obtain rfl : c = cached := h
    exact uses_templatesBelow e dir c
  | source s c =>
    obtain rfl : c = cached := h
    exact uses_templatesOf e s c
  | partials sources c =>
    obtain rfl : c = cached := h
    exact uses_aggregate e sources c
  | render file context o =>
    obtain rfl : o.cache = cached := h
    exact uses_bind (uses_render e file context o) fun v => uses_pure _
  | view file options => exact uses_bind (uses_view e file options h) fun v => uses_pure _

end CachedViews.Engine
