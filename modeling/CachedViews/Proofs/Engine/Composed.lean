import CachedViews.Proofs.Engine.Composition
import CachedViews.Proofs.Engine.HistoryFree
import CachedViews.Proofs.Engine.Rendered
import CachedViews.Proofs.Task.Within

/-
# Views are composed of what is looked up

Lookups of a view go on at the same time, and may end in any order. If all of them succeed,
the view comes to its composition all the same (`Engine.composed`): on a new engine, through
the caches, where what they hold takes the place of what the files say, and without the
caches, whatever they hold and whatever else is in flight.

If the options of a view bring its partials, it looks for none: whatever it starts, no
directory is listed (`Engine.NothingDiscovered`).

Not covered: templates that change a value of the context in place, which the layout then finds
changed. Such a change ends a render as one that is not followed (`Template.Env.mayChange`).

Key definitions: `Engine.ComesTo`, `Engine.NothingDiscovered`, `Engine.Composes`.
Key theorems: `Engine.closed_templatesOnly`, `Engine.uses_view_given`,
`Engine.nothing_discovered`, `Engine.view_composed`.
-/

namespace CachedViews.Engine

/-- However its lookups end in time, a view that is started on a desk comes to the result, or to
the fault. -/
def ComesTo (e : Engine) (tree : FileTree) (d : Desk) (file options : Value)
    (r : Except Fault Value) : Prop :=
  e.ViewConcludes (e.world tree) d file options ∧
    ∀ o, e.ViewEnds (e.world tree) d file options o → o = r.map Product.value

/-- The jobs that look for partials. -/
def Job.Discovers : Job → Prop
  | .list _ _ | .walk _ | .templates _ _ | .source _ _ | .partials _ _ => True
  | _ => False

/-- Nothing that was started since the desk `d` looks for partials. -/
structure NothingDiscovered (d b : Desk) : Prop where
  jobs : ∀ (u : Nat) (x : Task signature), d.tasks.length ≤ u → b.tasks[u]? = some x →
    ¬Job.Discovers x.job
  acts : ∀ u, d.tasks.length ≤ u → ∀ dir, ∀ a ∈ Board.account (σ := signature) b u,
    a ≠ .began (.walk dir) ∧ a ≠ .asked (.walk dir)

/-- A view whose lookups all succeed comes to the composition of its parts, in whatever order
they end. -/
structure Composes (e : Engine) (path : String) (entries : List (Value × Value))
    (parts : ViewParts) (file options : Value) (L : Lookups) : Prop where
  fresh : ∀ tree, lookupsOf (e.world tree 0) = L →
    e.ComesTo tree {} file options (e.composed path entries parts)
  /-- What is cached takes the place of what the files say. -/
  cached : ∀ trees d tree, e.Reached trees d → AtRest d → Caches options →
    lookupsOf (e.overlay d tree 0) = L →
      e.ComesTo tree d file options (e.composed path entries parts)
  /-- Without caches it makes no difference what they hold or what else is in flight. -/
  uncached : ∀ d tree, Board.Reaches (σ := signature) e.program {} d → ¬Caches options →
    lookupsOf (e.world tree 0) = L →
      Board.ConcludesAmid e.program (e.CurrentTree tree) d.tasks.length
        (started (.view file options) d) ∧
      ∀ o, e.JobEndsAmid tree d (.view file options) o →
        o = (e.composed path entries parts).map Product.value
  /-- If the options bring partials, none are looked for. -/
  given : givenPartials? entries ≠ none → ∀ trees d tree b, e.Reached trees d → AtRest d →
    Relation.ReflTransGen (e.Working tree) (start (.view file options) d).2 b →
      NothingDiscovered d b

variable {e : Engine} {path : String} {entries : List (Value × Value)} {parts : ViewParts}
  {file options : Value} {L : Lookups} {trees : FileTree → Prop} {tree : FileTree} {d b : Desk}

/-! ### Partials that are given -/

/-- What a view makes use of that looks for no partials: templates, and no directory. -/
def templatesOnly (file options : Value) : Usage signature where
  notes _ := True
  ops op := ∀ dir, op ≠ .walk dir
  keys c _ := c ≠ .directory
  jobs job := job = .view file options ∨ (∃ f, job = .open f) ∨ ∃ f cached, job = .compile f cached

theorem uses_reading_only (f : String) (cached : Bool) :
    UsesIn (templatesOnly file options) (reading f cached) := by
  cases cached with
  | true => exact uses_cachedJob _ nofun
  | false => exact uses_opening (fun _ => trivial) nofun

theorem uses_compiling_only (f : String) (cached : Bool) :
    UsesIn (templatesOnly file options) (compiling f cached) :=
  uses_compiling (fun _ => trivial) (uses_reading_only f cached) nofun

theorem uses_load_given {name : Value} {o : RenderOptions} {ps : List (String × Value)}
    (ho : o.partials = some ps) : UsesIn (templatesOnly file options) (e.load name o) := by
  unfold load
  rw [ho]
  refine uses_bind (uses_ofExcept _) fun key => ?_
  have htemplate : UsesIn (templatesOnly file options) (template key o.cache) := by
    cases o.cache with
    | true => exact uses_cachedJob _ nofun
    | false => exact uses_compiling_only key false
  exact uses_bind htemplate fun found => uses_pure _

/-- A view whose options bring its partials looks up templates only. -/
theorem uses_view_given (hr : e.HostRequest path entries file options)
    (hg : givenPartials? entries ≠ none) :
    UsesIn (templatesOnly file options) (e.view file options) := by
  obtain ⟨ps, hps⟩ := Option.ne_none_iff_exists'.1 hg
  refine uses_ofExcept_bind fun plan hplan => ?_
  obtain rfl := Except.ok.inj (hr.planView_eq.symm.trans hplan)
  refine uses_bind (uses_load_given hps) fun found => ?_
  refine uses_bind (uses_apply e _ _ _ _ _ fun _ => trivial) fun body => ?_
  split
  · exact uses_pure _
  · refine uses_bind (uses_note trivial) fun _ => ?_
    have hlayout : ∀ name context, UsesIn (templatesOnly file options) (e.render name context
        { (e.settledPlan path entries).options with layout := none, partials := some found.2 }) :=
      fun name context => uses_bind (uses_load_given rfl) fun found =>
        uses_apply e _ _ _ _ _ fun _ => trivial
    exact uses_bind (hlayout _ _) fun whole => uses_pure _

/-- What is started for such a view looks up templates only. -/
theorem closed_templatesOnly (hr : e.HostRequest path entries file options)
    (hg : givenPartials? entries ≠ none) (trees : FileTree → Prop) :
    (e.records trees).Closed (templatesOnly file options) where
  program job hj := by
    rcases hj with rfl | ⟨f, rfl⟩ | ⟨f, cached, rfl⟩
    · exact uses_bind (uses_view_given hr hg) fun v => uses_pure _
    · exact uses_opening (fun _ => trivial) nofun
    · exact uses_compiling_only f cached
  jobAt c k hc := by
    cases c with
    | directory => exact absurd rfl hc
    | file => exact .inr (.inl ⟨k, rfl⟩)
    | template => exact .inr (.inr ⟨k, true, rfl⟩)

/-- What is recorded of a desk at rest may be relied on. -/
theorem Recorded.settled (hd : e.Recorded trees d) (hr : AtRest d) :
    Board.Settled (e.records trees) d where
  orderly := hd.upheld.orderly
  ended := hr
  stored c k s hs := by
    obtain ⟨p, ho, -, hl⟩ := hd.cached hr hs
    exact ⟨p, ho, hl⟩
  missing _ _ _ := trivial

/-- **If the options bring partials, none are looked for.** -/
theorem nothing_discovered (hr : e.HostRequest path entries file options)
    (hg : givenPartials? entries ≠ none) (hd : e.Reached trees d) (hrest : AtRest d)
    (h : Relation.ReflTransGen (e.Working tree) (start (.view file options) d).2 b) :
    NothingDiscovered d b := by
  have hsane := hd.sane
  have hsettled := hsane.recorded.settled hrest
  have hclosed := closed_templatesOnly hr hg fun _ => True
  have hanswers : ∀ w, (∃ n, w = e.world tree n) →
      ∀ op, (e.records fun _ => True).answer op (w op) := by
    rintro w ⟨n, rfl⟩ op
    exact ⟨tree, n, trivial, rfl⟩
  have hstart : Board.Upheld (e.records fun _ => True) d (start (.view file options) d).2 :=
    hsettled.upheld.spawn trivial
  have hup := hstart.worksTo hsettled hanswers h
  have hview : (templatesOnly file options).jobs (.view file options) := .inl rfl
  have hwithin := (Board.within_spawn hsane.unbegun hview).worksTo hclosed hstart hsettled
    hanswers h
  refine ⟨fun u x hu hx hdisc => ?_, fun u hu dir a ha => ?_⟩
  · rcases hwithin.job hclosed hup hu hx with hj | ⟨f, hj⟩ | ⟨f, cached, hj⟩ <;>
      exact (hj ▸ hdisc : Job.Discovers _)
  · have hact := hwithin.acts hu a ha
    refine ⟨?_, ?_⟩ <;>
    · rintro rfl
      exact hact dir rfl

/-! ### What a view comes to -/

theorem EndsAs.eq_of {r : Except Fault Value} {o : Except Fault Product}
    (h : EndsAs (Forecast.of r) o) : o = r.map Product.value := by
  cases r with
  | ok v =>
    cases o with
    | ok p =>
      obtain ⟨x, hx, rfl⟩ := h
      rw [← Except.ok.inj hx]
      rfl
    | error f =>
      obtain ⟨fs, hfs, -⟩ := h
      cases hfs
  | error f =>
    cases o with
    | ok p =>
      obtain ⟨x, hx, -⟩ := h
      cases hx
    | error g =>
      obtain ⟨fs, hfs, hmem⟩ := h
      obtain rfl : [f] = fs := Except.error.inj hfs
      rw [List.mem_singleton.1 hmem]
      rfl

/-- A view that may be started comes to its composition. -/
theorem comesTo_composed {R : Regime} (hr : e.HostRequest path entries file options)
    (hl : e.LookupsSucceed path entries parts R.lookups) (hd : Board.Settled (R.contract e) d)
    (hw : ∀ n op, R.answer e op (e.world tree n op)) (ha : R.allowed e (.view file options)) :
    e.ComesTo tree d file options (e.composed path entries parts) := by
  obtain ⟨hend, hends⟩ := view_foreseen hd hw ha
  rw [viewForecast_composed hr hl] at hends
  exact ⟨hend, fun o ho => (hends o ho).eq_of⟩

/-- **A view is composed of what is looked up for it.** If its host options are as they are to be
and all lookups succeed, the view comes to the composition of what they give, in whatever
order they end. -/
theorem view_composed (hr : e.HostRequest path entries file options)
    (hl : e.LookupsSucceed path entries parts L) :
    e.Composes path entries parts file options L := by
  have hfresh : ∀ tree, lookupsOf (e.world tree 0) = L →
      e.ComesTo tree {} file options (e.composed path entries parts) := by
    rintro tree rfl
    exact comesTo_composed hr hl (settled_new e _) (answer_world e tree) (allowed_new e _ _)
  exact {
    fresh := hfresh
    cached := by
      rintro trees d tree hd hrest hc rfl
      exact comesTo_composed (R := e.cachedRegime d tree) hr hl
        (settled_cached hd.recorded hrest tree) (answer_cached e d tree)
        (allowed_cached e d tree file hc)
    uncached := fun d tree hd hc htree => by
      have hj : Chooses false (.view file options) := iff_of_false hc (by decide)
      have hfree : e.HistoryFree tree d (.view file options) := historyFree_of_reaches hd hj
      exact ⟨hfree.concludes, fun o ho => (hfresh tree htree).2 o ((hfree.outcomes o).1 ho)⟩
    given := fun hg trees d tree b hd hrest h => nothing_discovered hr hg hd hrest h }

/-! ### A view with a partial and a layout -/

/-- An engine that finds its partials and layouts below the views directory. -/
def framedEngine : Engine where
  config := {}
  cwd := "/"
  runtime := .closed 10

/-- A view that shows a variable and a partial, and a layout around it. -/
def framedTree : FileTree where
  root := .directory [("site", .directory
    [("v.html", .file (Text.encodeUtf8 "\x7b\x7b x \x7d\x7d\x7b\x7b partial('q') \x7d\x7d".toList)),
      ("partials", .directory [("q.html", .file (Text.encodeUtf8 "c".toList))]),
      ("layouts", .directory
        [("main.html", .file (Text.encodeUtf8 "[\x7b\x7b body \x7d\x7d]".toList))])])]

def framedLookups : Lookups := lookupsOf (framedEngine.world framedTree 0)

/-- Options that name the views directory, a layout and a variable. -/
def framedOptions : List (Value × Value) :=
  [(.str "settings", .dict [(.str "views", .path "/site")]), (.str "x", .str "a"),
    (.str "layout", .str "main")]

/-- The template that a file gives. -/
def templateAt? (e : Engine) (L : Lookups) (file : String) : Option Value :=
  (L.text file).toOption.bind fun text =>
    (e.compiler.compile e.config.compilerOptions file text).toOption

/-- The partials that the sources give. -/
def partialsAt? (e : Engine) (L : Lookups) (sources : Value) : Option (List (String × Handle)) :=
  match e.partialsForecast L sources with
  | .ok (.templates hs) => some hs
  | _ => none

def framedTemplate (file : String) : Value :=
  (templateAt? framedEngine framedLookups file).getD .null

def framedParts : ViewParts where
  template := framedTemplate "/site/v.html"
  partials := partialValues
    ((partialsAt? framedEngine framedLookups (.str "/site/partials/")).getD [])
  layout := some ("/site/layouts/main.html", framedTemplate "/site/layouts/main.html")

theorem eq_ok_of_toOption {ε α : Type} {r : Except ε α} {a : α} (h : r.toOption = some a) :
    r = .ok a := by
  cases r with
  | ok b => exact congrArg Except.ok (Option.some.inj h)
  | error f => cases h

theorem gives_templateAt? {name : String} (h : (templateAt? e L name).isSome = true) :
    e.Gives L name ((templateAt? e L name).getD .null) := by
  obtain ⟨v, hv⟩ := Option.isSome_iff_exists.1 h
  rw [hv]
  unfold templateAt? at hv
  obtain ⟨text, htext, hc⟩ := Option.bind_eq_some_iff.1 hv
  exact ⟨text, eq_ok_of_toOption htext, eq_ok_of_toOption hc⟩

theorem partialsForecast_partialsAt? {sources : Value}
    (h : (partialsAt? e L sources).isSome = true) :
    e.partialsForecast L sources = .ok (.templates ((partialsAt? e L sources).getD [])) := by
  unfold partialsAt? at h ⊢
  split at h
  · rename_i hs heq
    rw [heq]
    rfl
  · cases h

/-- The view is put into its layout, with its variable and its partial, which are found below the
directory of the settings. -/
theorem view_composed_framed :
    framedEngine.HostRequest "/site/v.html" framedOptions (.str "/site/v.html")
        (.dict framedOptions) ∧
      framedEngine.LookupsSucceed "/site/v.html" framedOptions framedParts framedLookups ∧
      framedEngine.Composes "/site/v.html" framedOptions framedParts (.str "/site/v.html")
        (.dict framedOptions) framedLookups ∧
      ∀ o, framedEngine.ViewEnds (framedEngine.world framedTree) {} (.str "/site/v.html")
        (.dict framedOptions) o → o.toOption.map (·.asValue.text) = some "[ac]" := by
  have hr : framedEngine.HostRequest "/site/v.html" framedOptions (.str "/site/v.html")
      (.dict framedOptions) := {
    entries_eq := rfl
    path_eq := rfl
    named := fun _ => rfl
    layout := fun v hv => by
      obtain rfl : Value.str "main" = v := Option.some.inj hv
      exact .inr (.inr nofun)
    helpers := fun v hv => nomatch (hv : none = some v)
    configured := fun _ hf => nomatch hf
    partials := fun v hv => nomatch (hv : none = some v) }
  have hfile : Path.absolute framedEngine.cwd "/site/v.html" = "/site/v.html" := by decide +kernel
  have hlayout : framedEngine.layoutOf framedOptions = some "main" := by decide +kernel
  have hframe : layoutFile framedEngine.cwd (framedEngine.layoutsDirOf framedOptions)
      framedEngine.config.extname "main" = "/site/layouts/main.html" := by decide +kernel
  have habs : Path.absolute framedEngine.cwd "/site/layouts/main.html" =
      "/site/layouts/main.html" := by
    decide +kernel
  have hl : framedEngine.LookupsSucceed "/site/v.html" framedOptions framedParts framedLookups := {
    template := by
      rw [hfile]
      dsimp only [framedParts, framedTemplate]
      exact gives_templateAt? (by decide +kernel)
    partials := ⟨_, partialsForecast_partialsAt? (by decide +kernel), rfl⟩
    layout := by
      rw [hlayout]
      dsimp only
      rw [hframe, habs]
      exact ⟨framedTemplate "/site/layouts/main.html", gives_templateAt? (by decide +kernel), rfl⟩ }
  have hcomposes := view_composed hr hl
  refine ⟨hr, hl, hcomposes, fun o ho => ?_⟩
  have htext : (framedEngine.composed "/site/v.html" framedOptions framedParts).toOption.map
      Value.text = some "[ac]" := by decide +kernel
  rw [(hcomposes.fresh framedTree rfl).2 o ho]
  cases hcomp : framedEngine.composed "/site/v.html" framedOptions framedParts with
  | ok v =>
    rw [hcomp] at htext
    exact htext
  | error f =>
    rw [hcomp] at htext
    cases htext

end CachedViews.Engine
