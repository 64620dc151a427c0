import CachedViews.Proofs.Engine.Expected
import CachedViews.Proofs.Engine.History
import CachedViews.Proofs.Engine.OneFault
import CachedViews.Proofs.Engine.Uncached
import CachedViews.Proofs.Task.Ending

/-
# Caching refines no caching

A view that is rendered through the caches gives what it gives without them, if the files
were what the caches know of them: listings and texts that are cached take the place of
those of the tree (`Engine.overlay`). Templates that are cached need no place of their own,
since each is made of a text that is cached.

Both ways of rendering come to the same forecast, one under a regime in which the caches
know what they hold, the other under one in which they know nothing.

Key definitions: `Engine.AtRest`, `Engine.overlay`, `Engine.ViewEnds`, `Engine.Unseen`,
`Engine.RefinesUncached`.
Key theorems: `Engine.settled_cached`, `Engine.settled_new`, `Engine.cached_view_refines`.
-/

namespace CachedViews.Engine

/-- No work is in flight. -/
def AtRest (d : Desk) : Prop :=
  ∀ (t : Nat) (task : Task signature), d.tasks[t]? = some task → task.phase.outcome? ≠ none

/-- The result that a cache holds under a key. -/
def cached? (d : Desk) (c : CacheName) (k : String) : Option Product :=
  match (Board.stored? (σ := signature) d c k).bind (Board.outcome? (σ := signature) d) with
  | some (.ok p) => some p
  | _ => none

/-- The surroundings of an engine, with what is cached in the place of what the files say: a
listing that is cached is what a walk of the directory gives, and a text that is cached is
what is in the file. -/
def overlay (e : Engine) (d : Desk) (tree : FileTree) (n : Nat) : World signature
  | .walk dir =>
    match cached? d .directory dir with
    | some p => .ok ⟨p.asNames, []⟩
    | none => e.world tree n (.walk dir)
  | .open file =>
    match cached? d .file file with
    | some p => .ok p.asText
    | none => e.world tree n (.open file)
  | .compile file text => e.world tree n (.compile file text)

/-- What is looked up in surroundings. -/
def lookupsOf (w : World signature) : Lookups where
  names dir := Except.map Listing.paths (w (.walk dir))
  text file := w (.open file)

variable {e : Engine} {trees : FileTree → Prop} {d : Desk} {tree : FileTree}

/-! ### A desk at rest -/

/-- What is stored at rest is there, and was looked up. -/
theorem Recorded.cached (hd : e.Recorded trees d) (hr : AtRest d) {c : CacheName} {k : String}
    {s : Nat} (hs : Board.stored? (σ := signature) d c k = some s) :
    ∃ p, Board.outcome? (σ := signature) d s = some (.ok p) ∧ cached? d c k = some p ∧
      e.LookedUp trees (jobAt c k) (.ok p) := by
  have hx := List.getElem?_eq_getElem (hd.upheld.orderly.lt hs)
  obtain ⟨o, ho⟩ := Option.ne_none_iff_exists'.1 (hr s _ hx)
  have hout : Board.outcome? (σ := signature) d s = some o := (Board.outcome?_eq hx).trans ho
  cases o with
  | error f => exact absurd hout (hd.unfailed c k s f hs)
  | ok p =>
    refine ⟨p, hout, ?_, hd.lookedUp hs hout⟩
    unfold cached?
    rw [hs, Option.bind_some, hout]
    rfl

theorem cached?_of_not_stored {c : CacheName} {k : String}
    (h : Board.stored? (σ := signature) d c k = none) : cached? d c k = none := by
  unfold cached?
  rw [h]
  rfl

/-- A template that is stored at rest is made of the text that is stored for its file. -/
theorem Recorded.template_made (hd : e.Recorded trees d) (hr : AtRest d) {file : String} {t : Nat}
    (hs : Board.stored? (σ := signature) d .template file = some t) :
    ∃ s text h, Board.stored? (σ := signature) d .file file = some s ∧
      Board.outcome? (σ := signature) d s = some (.ok text) ∧
      Board.outcome? (σ := signature) d t = some (.ok (.template h)) ∧
      e.compiler.compile e.config.compilerOptions file text.asText = .ok h.value := by
  obtain ⟨p, hp, -⟩ := hd.cached hr hs
  obtain ⟨x, hx, hxo⟩ := Board.outcome?_eq_some.1 hp
  have hb := hd.coherent file t x hs hx
  rw [hxo] at hb
  obtain ⟨s, text, h, hst, ho, rfl, hc⟩ := hb
  exact ⟨s, text, h, hst, ho, hp, hc⟩

/-! ### Regimes -/

/-- The caches know what they hold. -/
def cachedRegime (e : Engine) (d : Desk) (tree : FileTree) : Regime where
  lookups := lookupsOf (e.overlay d tree 0)
  known c k := Board.stored? (σ := signature) d c k ≠ none

/-- The caches know nothing. -/
def newRegime (L : Lookups) : Regime where
  lookups := L
  known _ _ := False

theorem map_value_world (e : Engine) (tree : FileTree) (n : Nat) (file text : String) :
    Except.map Handle.value (e.world tree n (.compile file text)) =
      e.compiler.compile e.config.compilerOptions file text := by
  change Except.map Handle.value (Except.map _ _) = _
  cases e.compiler.compile e.config.compilerOptions file text <;> rfl

theorem answer_cached (e : Engine) (d : Desk) (tree : FileTree) (n : Nat) (op : Op) :
    (e.cachedRegime d tree).answer e op (e.world tree n op) := by
  cases op with
  | walk dir =>
    intro hn
    have hnone := cached?_of_not_stored (Decidable.of_not_not hn)
    change _ = Except.map Listing.paths (e.overlay d tree 0 (.walk dir))
    rw [overlay, hnone]
    rfl
  | «open» file =>
    intro hn
    have hnone := cached?_of_not_stored (Decidable.of_not_not hn)
    change _ = e.overlay d tree 0 (.open file)
    rw [overlay, hnone]
    rfl
  | compile file text => exact map_value_world e tree n file text

theorem names_of_cached {dir : String} {p : Product} (h : cached? d .directory dir = some p)
    (n : Nat) : (lookupsOf (e.overlay d tree n)).names dir = .ok p.asNames := by
  change Except.map Listing.paths (e.overlay d tree n (.walk dir)) = _
  rw [overlay, h]
  rfl

theorem text_of_cached {file : String} {p : Product} (h : cached? d .file file = some p)
    (n : Nat) : (lookupsOf (e.overlay d tree n)).text file = .ok p.asText := by
  change e.overlay d tree n (.open file) = _
  rw [overlay, h]

/-- What is stored at rest is what is forecast for it. -/
theorem settled_cached (hd : e.Recorded trees d) (hr : AtRest d) (tree : FileTree) :
    Board.Settled ((e.cachedRegime d tree).contract e) d where
  orderly := hd.upheld.orderly
  ended := hr
  stored c k s hs := by
    obtain ⟨p, ho, hc, hl⟩ := hd.cached hr hs
    refine ⟨p, ho, ?_⟩
    cases c with
    | directory =>
      obtain ⟨-, l, -, -, rfl⟩ := hl
      exact namesForecast_of_ok (names_of_cached hc 0)
    | file =>
      obtain ⟨-, text, -, -, rfl⟩ := hl
      exact textForecast_of_ok (text_of_cached hc 0)
    | template =>
      obtain ⟨s', text, h, hs', ho', hmade, hcomp⟩ := hd.template_made hr hs
      obtain ⟨q, hq, hc', -⟩ := hd.cached hr hs'
      obtain rfl := Except.ok.inj (Option.some.inj (hq.symm.trans ho'))
      obtain rfl := Except.ok.inj (Option.some.inj (ho.symm.trans hmade))
      exact compileForecast_of_ok (text_of_cached hc' 0) hcomp
  missing c k hs := by
    cases c with
    | directory => exact fun h => h hs
    | file => exact fun h => h hs
    | template => exact .inl rfl

/-- Everything may be started where nothing is known. -/
theorem allowed_new (e : Engine) (L : Lookups) (job : Job) : (newRegime L).allowed e job := by
  have hu : ∀ cached, (newRegime L).MayUse cached := fun _ => .inr fun _ _ h => h
  cases job with
  | walk dir => exact fun h => h
  | «open» file => exact fun h => h
  | view file options => exact fun _ _ => hu _
  | _ => exact hu _

theorem settled_new (e : Engine) (L : Lookups) :
    Board.Settled ((newRegime L).contract e) ({} : Desk) :=
  Board.settled_empty fun job => allowed_new e L job

theorem answer_overlay (e : Engine) (d : Desk) (tree : FileTree) (n : Nat) (op : Op) :
    (newRegime (lookupsOf (e.overlay d tree 0))).answer e op (e.overlay d tree n op) := by
  cases op with
  | walk dir => exact fun _ => rfl
  | «open» file => exact fun _ => rfl
  | compile file text => exact map_value_world e tree n file text

theorem answer_world (e : Engine) (tree : FileTree) (n : Nat) (op : Op) :
    (newRegime (lookupsOf (e.world tree 0))).answer e op (e.world tree n op) := by
  cases op with
  | walk dir => exact fun _ => rfl
  | «open» file => exact fun _ => rfl
  | compile file text => exact map_value_world e tree n file text

/-- If there was one tree only, what is cached is what its files say. -/
theorem Recorded.lookups_overlay (hd : e.Recorded trees d) (hr : AtRest d)
    (ht : ∀ tree', trees tree' → tree' = tree) :
    lookupsOf (e.overlay d tree 0) = lookupsOf (e.world tree 0) := by
  have hnames : ∀ dir, (lookupsOf (e.overlay d tree 0)).names dir =
      (lookupsOf (e.world tree 0)).names dir := by
    intro dir
    rcases hs : Board.stored? (σ := signature) d .directory dir with _ | s
    · change Except.map Listing.paths (e.overlay d tree 0 (.walk dir)) = _
      rw [overlay, cached?_of_not_stored hs]
      rfl
    · obtain ⟨p, -, hc, tree', l, htree, hl, rfl⟩ := hd.cached hr hs
      obtain rfl := ht tree' htree
      rw [names_of_cached hc]
      change _ = Except.map Listing.paths (walk tree' e.cwd dir e.config.extname)
      rw [hl]
      rfl
  have htext : ∀ file, (lookupsOf (e.overlay d tree 0)).text file =
      (lookupsOf (e.world tree 0)).text file := by
    intro file
    rcases hs : Board.stored? (σ := signature) d .file file with _ | s
    · change e.overlay d tree 0 (.open file) = _
      rw [overlay, cached?_of_not_stored hs]
      rfl
    · obtain ⟨p, -, hc, tree', text, htree, hl, rfl⟩ := hd.cached hr hs
      obtain rfl := ht tree' htree
      rw [text_of_cached hc]
      exact hl.symm
  exact congrArg₂ Lookups.mk (funext hnames) (funext htext)

/-! ### Views -/

/-- However the work on a view goes on, it comes to its end. -/
def ViewConcludes (e : Engine) (world : Nat → World signature) (d : Desk)
    (file options : Value) : Prop :=
  Board.Concludes e.program (fun w => ∃ n, w = world n) d.tasks.length
    (start (.view file options) d).2

/-- A view that is started on a desk may end with the outcome. Templates are numbered in any
way. -/
def ViewEnds (e : Engine) (world : Nat → World signature) (d : Desk) (file options : Value)
    (o : Except Fault Product) : Prop :=
  Board.MayEnd e.program (fun w => ∃ n, w = world n) d.tasks.length o
    (start (.view file options) d).2

/-- What a view comes to when it is worked on until nothing is left to do is one of its ends. -/
theorem viewEnds_work {file options : Value} {o : Except Fault Product}
    (h : Board.outcome? (σ := signature) (e.work tree (.view file options) d).2 d.tasks.length =
      some o) : e.ViewEnds (e.world tree) d file options o := by
  refine ⟨_, ?_, h⟩
  refine Board.settle_keeps (fun b t hb => ?_) (fun b t hb => ?_) _ .refl
  · exact hb.tail (.resume ⟨_, rfl⟩ t)
  · exact hb.tail (.complete ⟨_, rfl⟩ t)

/-- No template of a view prints whether caches are used: the view gives the same when its
templates are told that they are not. -/
def Unseen (e : Engine) (L : Lookups) (file options : Value) : Prop :=
  ∀ plan, e.planView file options = .ok plan →
    e.planForecast L file plan = e.planForecast L file plan.uncached

/-- A view that is rendered through the caches of a desk gives what it gives without caches
on a new engine in the surroundings `world`: in both ways the work comes to its end, one
ends well exactly when the other does and then with the same text, and where one lookup
fails, or several with one fault, both end with that fault. In any case they end with a fault
that is forecast. -/
structure RefinesUncached (e : Engine) (d : Desk) (tree : FileTree) (world : Nat → World signature)
    (file options : Value) : Prop where
  concludes : e.ViewConcludes (e.world tree) d file options
  concludes_uncached : e.ViewConcludes world {} file (uncached options)
  ok_iff : ∀ o o', e.ViewEnds (e.world tree) d file options o →
    e.ViewEnds world {} file (uncached options) o' → ∀ p, o = .ok p ↔ o' = .ok p
  one_fault : ∀ f, e.OneLookupFails (lookupsOf (world 0)) file options f ∨
    (e.viewForecast (lookupsOf (world 0)) file options).FailsOnly f →
      ∀ o, e.ViewEnds (e.world tree) d file options o ∨
        e.ViewEnds world {} file (uncached options) o → o = .error f
  fault : ∀ f, e.ViewEnds (e.world tree) d file options (.error f) ∨
    e.ViewEnds world {} file (uncached options) (.error f) →
      ∃ fs, e.viewForecast (lookupsOf (world 0)) file options = .error fs ∧ f ∈ fs

theorem viewForecast_uncached {L : Lookups} {file options : Value}
    (hu : e.Unseen L file options) :
    e.viewForecast L file (uncached options) = e.viewForecast L file options := by
  unfold viewForecast
  rw [planView_uncached]
  cases hp : e.planView file options with
  | error f => rfl
  | ok plan => exact (hu plan hp).symm

/-- A view ends as forecast: with the value, or with one of the faults. -/
def EndsAs (v : Forecast Value) : Except Fault Product → Prop
  | .ok p => ∃ x, v = .ok x ∧ p = .value x
  | .error f => ∃ fs, v = .error fs ∧ f ∈ fs

theorem endsAs_of_admits {v : Forecast Value} {o : Except Fault Product}
    (h : Forecast.Admits (do return .value (← v)) Product.bare o) : EndsAs v o := by
  cases v with
  | ok x =>
    cases o with
    | ok p =>
      have hbare : Product.value x = p.bare := Except.ok.inj h
      cases p <;> cases hbare
      exact ⟨x, rfl, rfl⟩
    | error f =>
      obtain ⟨fs, hfs, -⟩ := h
      cases hfs
  | error fs =>
    cases o with
    | ok p => cases h
    | error f =>
      obtain ⟨gs, hgs, hf⟩ := h
      obtain rfl : fs = gs := Except.error.inj hgs
      exact ⟨fs, rfl, hf⟩

/-- What one view gives by a forecast, another one gives too. -/
theorem EndsAs.eq_ok {v : Forecast Value} {p : Product} {o : Except Fault Product}
    (h : EndsAs v (.ok p)) (ho : EndsAs v o) : o = .ok p := by
  obtain ⟨x, rfl, rfl⟩ := h
  cases o with
  | ok q =>
    obtain ⟨y, hy, rfl⟩ := ho
    rw [Except.ok.inj hy]
  | error f =>
    obtain ⟨fs, hfs, -⟩ := ho
    cases hfs

theorem EndsAs.eq_error {v : Forecast Value} {f : Fault} {o : Except Fault Product}
    (hv : v.FailsOnly f) (ho : EndsAs v o) : o = .error f := by
  obtain ⟨fs, rfl, hall⟩ := hv
  cases o with
  | ok p =>
    obtain ⟨x, hx, -⟩ := ho
    cases hx
  | error g =>
    obtain ⟨gs, hgs, hmem⟩ := ho
    obtain rfl := Except.error.inj hgs
    rw [hall g hmem]

/-- A view that may be started comes to its end as forecast. -/
theorem view_foreseen {R : Regime} {world : Nat → World signature} {file options : Value}
    (hd : Board.Settled (R.contract e) d) (hw : ∀ n op, R.answer e op (world n op))
    (ha : R.allowed e (.view file options)) :
    e.ViewConcludes world d file options ∧ ∀ o, e.ViewEnds world d file options o →
      EndsAs (e.viewForecast R.lookups file options) o := by
  have hworld : ∀ w, (∃ n, w = world n) → ∀ op, R.answer e op (w op) := by
    rintro w ⟨n, rfl⟩ op
    exact hw n op
  have hends : e.ViewConcludes world d file options ∧ ∀ o, e.ViewEnds world d file options o →
      (e.forecast R.lookups (.view file options)).Admits Product.bare o :=
    hd.concludes hworld ⟨_, 0, rfl⟩ ha
  exact ⟨hends.1, fun o ho => endsAs_of_admits (hends.2 o ho)⟩

/-- Where the caches make no difference to what is looked up, they make none to a view. -/
theorem refines_of_lookups (hd : e.Recorded trees d) (hr : AtRest d)
    {world : Nat → World signature} {file options : Value} (hc : Caches options)
    (hl : lookupsOf (e.overlay d tree 0) = lookupsOf (world 0))
    (hw : ∀ n op, (newRegime (lookupsOf (world 0))).answer e op (world n op))
    (hu : e.Unseen (lookupsOf (world 0)) file options) :
    e.RefinesUncached d tree world file options := by
  have hcached : (e.cachedRegime d tree).allowed e (.view file options) :=
    fun plan hp => .inl (hc.planView hp)
  have hnew : (newRegime (lookupsOf (world 0))).allowed e (.view file (uncached options)) :=
    fun _ _ => .inr fun _ _ h => h
  obtain ⟨hend, hends⟩ := view_foreseen (settled_cached hd hr tree) (answer_cached e d tree) hcached
  obtain ⟨hend', hends'⟩ := view_foreseen (settled_new e _) hw hnew
  have hlookups : (e.cachedRegime d tree).lookups = lookupsOf (world 0) := hl
  have hforecast : e.viewForecast (newRegime (lookupsOf (world 0))).lookups file
      (uncached options) = e.viewForecast (lookupsOf (world 0)) file options :=
    viewForecast_uncached hu
  rw [hlookups] at hends
  rw [hforecast] at hends'
  have hboth : ∀ o, e.ViewEnds (e.world tree) d file options o ∨
      e.ViewEnds world {} file (uncached options) o →
      EndsAs (e.viewForecast (lookupsOf (world 0)) file options) o :=
    fun o ho => ho.elim (hends o) (hends' o)
  exact {
    concludes := hend
    concludes_uncached := hend'
    ok_iff := fun o o' ho ho' p => by
      refine ⟨fun h => ?_, fun h => ?_⟩
      · exact (h ▸ hends o ho : EndsAs _ (.ok p)).eq_ok (hends' o' ho')
      · exact (h ▸ hends' o' ho' : EndsAs _ (.ok p)).eq_ok (hends o ho)
    one_fault := fun f hf o ho => (hboth o ho).eq_error (hf.elim (·.failsOnly) id)
    fault := fun f ho => hboth (.error f) ho }

/-- **Caching refines no caching.** Whatever happened to an engine before, with any number of
trees of files, a view that is rendered through its caches while no other work is in flight
gives what the uncached view gives on a new engine, if listings and texts that are cached
take the place of those of the current tree. If the tree has never changed, it gives what
the uncached view gives on a new engine in that tree. -/
theorem cached_view_refines {file options : Value} (hd : e.Reached trees d) (hr : AtRest d)
    (hc : Caches options) (hu : e.Unseen (lookupsOf (e.overlay d tree 0)) file options) :
    e.RefinesUncached d tree (e.overlay d tree) file options ∧
      ((∀ tree', trees tree' → tree' = tree) →
        e.RefinesUncached d tree (e.world tree) file options) := by
  have hrec := hd.recorded
  refine ⟨refines_of_lookups hrec hr hc rfl (answer_overlay e d tree) hu, fun ht => ?_⟩
  have hl := hrec.lookups_overlay hr ht
  rw [hl] at hu
  exact refines_of_lookups hrec hr hc hl (answer_world e tree) hu

/-! ### A view whose file was edited -/

/-- An engine that finds its partials in one directory. -/
def sampleEngine : Engine where
  config := { partialsDir := .one "/p" }
  cwd := "/"
  runtime := .closed 10

/-- A view of a text, and a partial. -/
def sampleTree (text : String) : FileTree where
  root := .directory
    [("v.html", .file (Text.encodeUtf8 text.toList)),
      ("p", .directory [("q.html", .file (Text.encodeUtf8 "c".toList))])]

/-- Use the caches. -/
def sampleOptions : Value := .dict [(.str "cache", .bool true)]

/-- The desk of the engine when the view was rendered once. -/
def sampleDesk : Desk :=
  sampleEngine.settle (sampleTree "a") (start (.view (.str "/v.html") sampleOptions) {}).2

/-- What the options of the view settle. -/
def samplePlan : ViewPlan where
  layoutsDir := "views/layouts/"
  options := { cache := true, helpers := some [], partialsDir := .str "/p" }
  context := []

theorem atRest_of_all (h : (d.tasks.all fun task => task.phase.outcome?.isSome) = true) :
    AtRest d := by
  intro t task ht ho
  have htask := List.all_eq_true.1 h task (List.mem_of_getElem? ht)
  simp [ho] at htask

/-- The text that is forecast, if there is one. -/
def Forecast.text? : Forecast Value → Option String
  | .ok (.str s) => some s
  | _ => none

theorem Forecast.eq_of_text? {v : Forecast Value} {s : String} (h : v.text? = some s) :
    v = .ok (.str s) := by
  unfold text? at h
  split at h
  · rw [Option.some.inj h]
  · cases h

/-- After the file of a view was edited, the cached view still gives what it gave. -/
theorem cached_view_refines_edited :
    sampleEngine.Reached (fun tree => tree = sampleTree "a") sampleDesk ∧
      AtRest sampleDesk ∧ Caches sampleOptions ∧
      sampleEngine.Unseen (lookupsOf (sampleEngine.overlay sampleDesk (sampleTree "b") 0))
        (.str "/v.html") sampleOptions ∧
      sampleEngine.RefinesUncached sampleDesk (sampleTree "b")
        (sampleEngine.overlay sampleDesk (sampleTree "b")) (.str "/v.html") sampleOptions := by
  have hd : sampleEngine.Reached (fun tree => tree = sampleTree "a") sampleDesk :=
    Reached.settle (.single (.start (.view (.str "/v.html") sampleOptions))) rfl
  have hr : AtRest sampleDesk := atRest_of_all (by decide +kernel)
  have hc : Caches sampleOptions := ⟨[(.str "cache", .bool true)], rfl, rfl⟩
  have hu : sampleEngine.Unseen
      (lookupsOf (sampleEngine.overlay sampleDesk (sampleTree "b") 0)) (.str "/v.html")
      sampleOptions := by
    intro plan hp
    have hplan : sampleEngine.planView (.str "/v.html") sampleOptions = .ok samplePlan := rfl
    obtain rfl : samplePlan = plan := Except.ok.inj (hplan.symm.trans hp)
    have htext : ∀ plan ∈ [samplePlan, samplePlan.uncached], (sampleEngine.planForecast
        (lookupsOf (sampleEngine.overlay sampleDesk (sampleTree "b") 0)) (.str "/v.html")
        plan).text? = some "a" := by decide +kernel
    rw [Forecast.eq_of_text? (htext samplePlan (by simp)),
      Forecast.eq_of_text? (htext samplePlan.uncached (by simp))]
  exact ⟨hd, hr, hc, hu, (cached_view_refines hd hr hc hu).1⟩

end CachedViews.Engine
