import CachedViews.Proofs.Engine.Composition
import CachedViews.Proofs.Engine.HistoryFree
import CachedViews.Proofs.Engine.Rendered
import CachedViews.Proofs.Engine.Reported
import CachedViews.Proofs.Web.Steering

/-
# Views that are not found

A site answers that a view is not found if the fault of the view is that its own file could not be
read. The fault names the resolved form of the path that the engine was given, and the site compares
it with the path that it gave; both are the same, since that path is resolved already. So no fault
of a partial or of a layout is taken for one of the view, and where at most one thing goes wrong, as
when one lookup fails, a view is not found exactly if its file cannot be read
(`Web.not_found_exactly`).

That a file cannot be read does not mean that there is none (`FileTree.Unreadable`). Its octets may
be no text, and a view with such a file is not found either (`Web.octets_not_found`). Where they are
text, it is the views without a file that are not found.

Key definitions: `FileTree.HasFile`, `FileTree.Unreadable`, `Engine.Forecast.AtMostOneFault`,
`Web.Site.reply`, `Web.Told`, `Web.PlainPage`, `Web.NotFoundExactly`.
Key theorems: `FileTree.openText_unreadable_iff`, `Engine.endsAs_reading`, `Web.told_of_endsAs`,
`Web.PlainPage.hostRequest`, `Web.not_found_exactly`.
-/

namespace CachedViews

open CachedViews.Text

/-! ### Files that cannot be read -/

namespace FileTree

/-- There is a file at the path. -/
def HasFile (tree : FileTree) (cwd path : String) : Prop :=
  ∃ octets, tree.readOctets cwd path = .ok octets

/-- There is no file at the path, or one whose octets are no text. No file can be asked for by a
path with a null character. -/
def Unreadable (tree : FileTree) (cwd path : String) : Prop :=
  '\x00' ∉ path.toList ∧
    (¬tree.HasFile cwd path ∨
      ∃ octets e, tree.readOctets cwd path = .ok octets ∧ decodeUtf8 octets = .error e)

theorem openText_unreadable_iff {tree : FileTree} {cwd path : String} :
    (∃ cause, tree.openText cwd path = .error (.unreadable cause)) ↔ tree.Unreadable cwd path := by
  unfold openText Unreadable HasFile FileTree.read decodeText
  by_cases hnull : path.toList.contains '\x00' = true
  · rw [if_pos hnull]
    exact iff_of_false (fun ⟨_, h⟩ => nomatch h)
      (fun h => h.1 (List.contains_iff_mem.1 hnull))
  · rw [if_neg hnull]
    have hmem : '\x00' ∉ path.toList := fun h => hnull (List.contains_iff_mem.2 h)
    cases ho : tree.readOctets cwd path with
    | error f => exact iff_of_true ⟨_, rfl⟩ ⟨hmem, .inl fun ⟨_, h⟩ => nomatch h⟩
    | ok octets =>
      dsimp only
      cases ht : decodeUtf8 octets with
      | error e => exact iff_of_true ⟨_, rfl⟩ ⟨hmem, .inr ⟨octets, e, rfl, ht⟩⟩
      | ok s =>
        refine iff_of_false (fun ⟨_, h⟩ => nomatch h) fun ⟨_, h⟩ => ?_
        rcases h with h | ⟨octets', e, hoctets, he⟩
        · exact h ⟨octets, rfl⟩
        · obtain rfl := Except.ok.inj hoctets
          cases ht.symm.trans he

end FileTree

/-! ### What a view may end with -/

namespace Engine

/-- At most one thing may go wrong. -/
def Forecast.AtMostOneFault {α : Type} (v : Forecast α) : Prop :=
  ∀ f ∈ v.faults, ∀ g ∈ v.faults, f = g

variable {e : Engine} {L : Lookups} {file options : Value} {plan : ViewPlan}
  {o : Except Fault Product} {f : Fault} {key : String} {cause : ReadFault}

theorem Forecast.atMostOneFault_of_length {α : Type} {v : Forecast α} (h : v.faults.length ≤ 1) :
    v.AtMostOneFault := by
  intro f hf g hg
  obtain ⟨x, hx⟩ := List.length_eq_one_iff.1 (le_antisymm h (List.length_pos_of_mem hf))
  rw [hx] at hf hg
  exact (List.mem_singleton.1 hf).trans (List.mem_singleton.1 hg).symm

/-- If one lookup fails, at most one thing may go wrong. -/
theorem OneLookupFails.atMostOneFault (h : e.OneLookupFails L file options f) :
    (e.viewForecast L file options).AtMostOneFault := by
  obtain ⟨fs, hfs, hall⟩ := h.failsOnly
  rw [hfs]
  exact fun g hg g' hg' => (hall g hg).trans (hall g' hg').symm

/-- **A view whose file cannot be read ends with that**, if nothing else goes wrong. -/
theorem endsAs_reading (hplan : e.planView file options = .ok plan)
    (hkey : e.keyOf file = .ok key) (ht : L.text key = .error (.unreadable cause))
    (hone : (e.viewForecast L file options).AtMostOneFault)
    (ho : EndsAs (e.viewForecast L file options) o) :
    o = .error (.view (.reading key cause)) := by
  obtain ⟨fs, hfs, hmem⟩ := reading_mem_faults hplan hkey ht
  refine EndsAs.eq_error ⟨fs, hfs, fun g hg => ?_⟩ ho
  rw [hfs] at hone
  exact hone g hg _ hmem

/-- A view that ends with a file that could not be read has looked it up. -/
theorem EndsAs.reported (ho : EndsAs (e.viewForecast L file options) (.error f)) :
    Reported L f := by
  obtain ⟨fs, hfs, hf⟩ := ho
  refine reported_view (e := e) file options f ?_
  rw [hfs]
  exact hf

/-- A view on a new engine ends as forecast. -/
theorem endsAs_of_jobEnds {tree : FileTree} (h : e.JobEnds tree (.view file options) o) :
    EndsAs (e.viewForecast (lookupsOf (e.world tree 0)) file options) o :=
  endsAs_of_admits ((new_foreseen e tree _).2 o h)

end Engine

namespace Web

open Engine (AtRest Caches EndsAs Lookups Product cached? lookupsOf)

variable {s : Site} {v : ViewRequest} {view : String} {tree : FileTree} {d : Engine.Desk}
  {options : Value} {plan : Engine.ViewPlan} {L : Lookups} {o : Except Fault Product}

/-! ### What a site replies -/

/-- What is replied to the outcome of a view: its text, or why there is none. -/
def Site.reply (s : Site) (view : String) : Except Fault Product → Except Failure String
  | .ok p => .ok p.asValue.text
  | .error f => .error (s.failureOf view f)

/-- What is replied to an outcome if the view counts as missing or not: a missing view is not found,
and otherwise a fault is passed on as it is. -/
structure Told (s : Site) (view : String) (o : Except Fault Product) (missing : Prop) : Prop where
  not_found_iff : s.reply view o = .error (.refused (.viewNotFound view)) ↔ missing
  passed_on : ¬missing → ∀ f, o = .error f → s.reply view o = .error (.fault f)

theorem renderText_eq (hoptions : s.viewOptions v = .ok options) (tree : FileTree)
    (d : Engine.Desk) :
    (s.renderText tree v d).1 = s.reply v.view
      (s.engine.work tree (.view (.str (s.viewFile v.view)) options) d).1 := by
  unfold Site.renderText
  rw [hoptions]
  dsimp only
  cases (s.engine.work tree (.view (.str (s.viewFile v.view)) options) d).1 <;> rfl

theorem failureOf_reading (cause : ReadFault) :
    s.failureOf view (.view (.reading (s.viewFile view) cause)) =
      .refused (.viewNotFound view) := by
  unfold Site.failureOf
  exact if_pos rfl

theorem failureOf_of_ne {f : Fault} (h : ∀ cause, f ≠ .view (.reading (s.viewFile view) cause)) :
    s.failureOf view f = .fault f := by
  unfold Site.failureOf
  split
  · next path cause =>
    exact if_neg fun he => h cause (by rw [he])
  · rfl

/-- The file of a view is given to the engine by its resolved path. -/
theorem keyOf_viewFile (hcwd : Path.isAbsolute s.engine.cwd = true) (view : String) :
    s.engine.keyOf (.str (s.viewFile view)) = .ok (s.viewFile view) :=
  congrArg Except.ok (Path.absolute_absolute hcwd _)

/-- **A view is not found if its own file cannot be read**, and only then. -/
theorem told_of_endsAs (hcwd : Path.isAbsolute s.engine.cwd = true)
    (hplan : s.engine.planView (.str (s.viewFile view)) options = .ok plan)
    (hone : (s.engine.viewForecast L (.str (s.viewFile view)) options).AtMostOneFault)
    (ho : EndsAs (s.engine.viewForecast L (.str (s.viewFile view)) options) o) :
    Told s view o (∃ cause, L.text (s.viewFile view) = .error (.unreadable cause)) := by
  have hpassed : (¬∃ cause, L.text (s.viewFile view) = .error (.unreadable cause)) →
      ∀ f, o = .error f → s.reply view o = .error (.fault f) := by
    rintro hno f rfl
    refine congrArg Except.error (failureOf_of_ne fun cause he => hno ⟨cause, ?_⟩)
    exact ho.reported _ cause he
  refine ⟨⟨fun hreply => by_contra fun hno => ?_, ?_⟩, hpassed⟩
  · cases o with
    | ok p => cases hreply
    | error f => cases (hpassed hno f rfl).symm.trans hreply
  · rintro ⟨cause, ht⟩
    rw [Engine.endsAs_reading hplan (keyOf_viewFile hcwd view) ht hone ho]
    exact congrArg Except.error (failureOf_reading cause)

/-! ### Pages with plain variables -/

/-- Variables that have none of the names that the engine looks up. -/
def PlainVariables (es : List (Value × Value)) : Prop :=
  ∀ f ∈ Value.stringFields es, f.1 ∉ Engine.steeringKeys

/-- An option has a value that the engine takes: a layout is a text, none or false, helpers can be
called, and helpers and partials have names. -/
structure ValidOption (name : String) (x : Value) : Prop where
  layout : name = "layout" → x = .null ∨ x = .bool false ∨ x.string? ≠ none
  helpers : name = "helpers" → x.isTrue = false ∨
    ∃ es, x = .dict es ∧ ∀ f ∈ es, f.1.string? ≠ none ∧ f.2.isCallable = true
  partials : name = "partials" → x = .null ∨ ∃ es, x = .dict es ∧ ∀ f ∈ es, f.1.string? ≠ none

/-- A site and a request for one of its views: the site was set up with a checked configuration in a
working directory, and the variables of both are plain. -/
structure PlainPage (s : Site) (v : ViewRequest) (k : List (Value × Value)) : Prop where
  cwd : Path.isAbsolute s.engine.cwd = true
  configured : ∀ f ∈ s.engine.config.helpers, f.2.isCallable = true
  context : contextEntries v.context = .ok k
  site_plain : PlainVariables s.context
  request_plain : PlainVariables k
  options : ∀ f ∈ v.options, ValidOption f.1 f.2

variable {k : List (Value × Value)}

theorem PlainVariables.lookup {es : List (Value × Value)} (h : PlainVariables es) {name : String}
    (hname : name ∈ Engine.steeringKeys) : (Value.stringFields es).reverse.lookup name = none := by
  refine List.lookup_eq_none_iff.2 fun f hf => ?_
  have hne : name ≠ f.1 := fun he => h f (List.mem_reverse.1 hf) (he ▸ hname)
  simpa using hne

/-- Where the variables are plain, such a name stands for what the options of the request say. -/
theorem PlainPage.valid_given (h : PlainPage s v k) {name : String} {x : Value}
    (hname : name = "layout" ∨ name = "helpers" ∨ name = "partials")
    (hx : s.given v s.context k name = some x) : ValidOption name x := by
  obtain ⟨hkey, hbase⟩ : name ∈ Engine.steeringKeys ∧
      Value.entry? name (s.baseOptions v.request) = none := by
    rcases hname with rfl | rfl | rfl <;> exact ⟨by decide, rfl⟩
  unfold Site.given at hx
  rw [h.request_plain.lookup hkey, h.site_plain.lookup hkey, hbase] at hx
  simp only [Option.or_none] at hx
  exact h.options _ (List.mem_filter.1 (List.mem_reverse.1 (mem_of_lookup hx))).1

theorem PlainPage.viewOptions_eq (h : PlainPage s v k) :
    s.viewOptions v = .ok (.dict (s.layers v s.context k)) := by
  unfold Site.viewOptions
  rw [h.context]
  rfl

theorem PlainPage.hostRequest (h : PlainPage s v k) :
    s.engine.HostRequest (s.viewFile v.view) (s.layers v s.context k)
      (.str (s.viewFile v.view)) (.dict (s.layers v s.context k)) where
  entries_eq := Engine.entriesOf_dict _
  path_eq := rfl
  named _ := by
    have habs : Path.isAbsolute (s.viewFile v.view) = true := Path.isAbsolute_absolute h.cwd _
    have hne : s.viewFile v.view ≠ "" := by
      intro he
      rw [he] at habs
      cases habs
    simpa [Value.isTrue] using hne
  layout x hx := (h.valid_given (.inl rfl) (s.lookup_layers v _ k _ ▸ hx)).layout rfl
  helpers x hx := (h.valid_given (.inr (.inl rfl)) (s.lookup_layers v _ k _ ▸ hx)).helpers rfl
  configured := h.configured
  partials x hx := (h.valid_given (.inr (.inr rfl)) (s.lookup_layers v _ k _ ▸ hx)).partials rfl

/-! ### What is answered as not found -/

theorem text_world_iff {e : Engine} {key : String} :
    (∃ cause, (lookupsOf (e.world tree 0)).text key = .error (.unreadable cause)) ↔
      tree.Unreadable e.cwd key :=
  FileTree.openText_unreadable_iff

/-- The text of a file that is cached need not be read. -/
theorem text_overlay_iff {e : Engine} {key : String} :
    (∃ cause, (lookupsOf (e.overlay d tree 0)).text key = .error (.unreadable cause)) ↔
      cached? d .file key = none ∧ tree.Unreadable e.cwd key := by
  cases hc : cached? d .file key with
  | some p =>
    rw [Engine.text_of_cached hc]
    exact iff_of_false (fun ⟨_, h⟩ => nomatch h) fun h => nomatch h.1
  | none =>
    rw [and_iff_right rfl, ← text_world_iff]
    change (∃ cause, e.overlay d tree 0 (.open key) = _) ↔ _
    rw [Engine.overlay, hc]
    rfl

/-- A site answers a request for a view that it is not found exactly if its file cannot be read: the
work on the view comes to its end, in whatever order its lookups end, and if at most one thing goes
wrong, this is what is told. -/
structure NotFoundExactly (s : Site) (v : ViewRequest) (tree : FileTree) (options : Value) :
    Prop where
  /-- Through the caches, a file is found if its text is cached. -/
  cached : ∀ trees d, s.engine.Reached trees d → AtRest d → Caches options →
    s.engine.ViewConcludes (s.engine.world tree) d (.str (s.viewFile v.view)) options ∧
      ((s.engine.viewForecast (lookupsOf (s.engine.overlay d tree 0)) (.str (s.viewFile v.view))
          options).AtMostOneFault →
        ∀ o, s.engine.ViewEnds (s.engine.world tree) d (.str (s.viewFile v.view)) options o →
          Told s v.view o (cached? d .file (s.viewFile v.view) = none ∧
            tree.Unreadable s.engine.cwd (s.viewFile v.view)))
  /-- Without caches it makes no difference what they hold or what else is in flight. -/
  uncached : ∀ d, Board.Reaches (σ := Engine.signature) s.engine.program {} d → ¬Caches options →
    Board.ConcludesAmid s.engine.program (s.engine.CurrentTree tree) d.tasks.length
        (Engine.started (.view (.str (s.viewFile v.view)) options) d) ∧
      ((s.engine.viewForecast (lookupsOf (s.engine.world tree 0)) (.str (s.viewFile v.view))
          options).AtMostOneFault →
        ∀ o, s.engine.JobEndsAmid tree d (.view (.str (s.viewFile v.view)) options) o →
          Told s v.view o (tree.Unreadable s.engine.cwd (s.viewFile v.view)))

/-- **A view is not found exactly if its file cannot be read.** -/
theorem not_found_exactly (s : Site) (v : ViewRequest) (k : List (Value × Value))
    (h : PlainPage s v k) (tree : FileTree) :
    ∃ options, s.viewOptions v = .ok options ∧
      (∀ d, (s.renderText tree v d).1 = s.reply v.view
        (s.engine.work tree (.view (.str (s.viewFile v.view)) options) d).1) ∧
      NotFoundExactly s v tree options := by
  have hplan := h.hostRequest.planView_eq
  refine ⟨_, h.viewOptions_eq, renderText_eq h.viewOptions_eq tree, ?_, ?_⟩
  · intro trees d hd hrest hc
    obtain ⟨hend, hends⟩ := Engine.view_foreseen
      (Engine.settled_cached hd.recorded hrest tree) (Engine.answer_cached s.engine d tree)
      (Engine.allowed_cached s.engine d tree (.str (s.viewFile v.view)) hc)
    refine ⟨hend, fun hone o ho => ?_⟩
    rw [← text_overlay_iff]
    exact told_of_endsAs h.cwd hplan hone (hends o ho)
  · intro d hd hc
    have hfree : s.engine.HistoryFree tree d (.view (.str (s.viewFile v.view)) _) :=
      Engine.historyFree_of_reaches hd (iff_of_false hc (by decide))
    refine ⟨hfree.concludes, fun hone o ho => ?_⟩
    rw [← text_world_iff]
    exact told_of_endsAs h.cwd hplan hone (Engine.endsAs_of_jobEnds ((hfree.outcomes o).1 ho))

/-! ### A missing view, and one whose octets are no text -/

/-- A view that is not there is not found. -/
theorem not_found_exactly_away :
    let v : ViewRequest := { view := "away" }
    PlainPage besideSite v [] ∧ ∃ options, besideSite.viewOptions v = .ok options ∧
      ∀ o, besideSite.engine.ViewEnds (besideSite.engine.world besideTree) {}
          (.str (besideSite.viewFile "away")) options o →
        besideSite.reply "away" o = .error (.refused (.viewNotFound "away")) := by
  intro v
  have hplain : PlainPage besideSite v [] := {
    cwd := by decide
    configured := nofun
    context := rfl
    site_plain := nofun
    request_plain := nofun
    options := nofun }
  obtain ⟨options, hoptions, -, hexactly⟩ := not_found_exactly besideSite v [] hplain besideTree
  refine ⟨hplain, options, hoptions, fun o ho => ?_⟩
  obtain rfl := Except.ok.inj (hplain.viewOptions_eq.symm.trans hoptions)
  have hcaches : Caches (.dict (besideSite.layers v besideSite.context [])) :=
    ⟨_, Engine.entriesOf_dict _, by decide +kernel⟩
  have hrest : AtRest {} := fun _ _ h => nomatch h
  obtain ⟨-, htold⟩ := hexactly.cached (· = besideTree) {} .refl hrest hcaches
  have hone := Engine.Forecast.atMostOneFault_of_length (v := besideSite.engine.viewForecast
    (lookupsOf (besideSite.engine.overlay {} besideTree 0)) (.str (besideSite.viewFile "away"))
    (.dict (besideSite.layers v besideSite.context []))) (by decide +kernel)
  refine (htold hone o ho).not_found_iff.2 ⟨rfl, by decide +kernel, .inl ?_⟩
  rintro ⟨octets, h⟩
  have hnone : (besideTree.readOctets "/" (besideSite.viewFile "away")).isOk = false := by
    decide +kernel
  rw [show besideSite.engine.cwd = "/" from rfl] at h
  rw [h] at hnone
  cases hnone

/-- A view whose only octet begins no character. -/
def octetsTree : FileTree where
  root := .directory [("views", .directory
    [("home.html", .file [0xff]), ("partials", .directory [])])]

/-- The refusal that is answered, if it is one. -/
def refusal? {α : Type} : Except Failure α → Option HttpError
  | .error (.refused e) => some e
  | _ => none

/-- A view that is there is not found, since its octets are no text. -/
theorem octets_not_found :
    let s : Site := Site.create { config := {}, cwd := "/", runtime := .closed 10 } "views"
    let v : ViewRequest := { view := "home" }
    PlainPage s v [] ∧ octetsTree.HasFile s.engine.cwd (s.viewFile "home") ∧
      (s.engine.viewForecast (lookupsOf (s.engine.world octetsTree 0)) (.str (s.viewFile "home"))
        (.dict (s.layers v [] []))).AtMostOneFault ∧
      refusal? (renderPage (some s) octetsTree v {}).1 = some (.viewNotFound "home") := by
  intro s v
  refine ⟨⟨by decide, nofun, rfl, nofun, nofun, nofun⟩, ⟨[0xff], by decide +kernel⟩, ?_,
    by decide +kernel⟩
  exact Engine.Forecast.atMostOneFault_of_length (by decide +kernel)

end Web

end CachedViews
