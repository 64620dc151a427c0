import CachedViews.Proofs.Engine.Composed
import CachedViews.Proofs.Template.Reading

/-
# Escaping in a view

The templates of a view may be scripted: each is read as a list of pieces, under the default
options of the compiler (`Engine.Scripted`). Such a view comes to the expansion of its template,
or, if it is to have a layout, to the expansion of the layout with the expansion of the view as
markup for its body (`Script.text`). So every plain text that a variable holds is escaped once
where it is printed, and all markup and all literals stand in the view as they are, however many
partials and layouts they have passed.

Key definitions: `Template.Compiles`, `Engine.Script`, `Engine.Script.text`, `Engine.Scripted`,
`Engine.Answers`.
Key theorems: `Engine.Scripted.composed_eq`, `Engine.view_escaped_once`.
-/

namespace CachedViews.Template

/-! ### Default options -/

/-- The options leave everything at its default that pages depend on. -/
def Unset (options : List (String × Value)) : Prop :=
  ∀ key ∈ recognised, options.lookup key = none

/-- The value is the template that a text is compiled to under the default options, and the text
is read as the pieces. -/
def Compiles (v : Value) (ps : List Piece) : Prop :=
  ∃ options text g, Unset options ∧ (compilePage options text).map (.page g) = .ok v ∧
    Reads text ps

variable {options : List (String × Value)} {v : Value} {ps : List Piece}

theorem Unset.settingsOf_eq (h : Unset options) : settingsOf options = .ok {} := by
  unfold settingsOf
  simp only [h "autoescape" (by decide), h "extensions" (by decide),
    h "keep_trailing_newline" (by decide), h "lstrip_blocks" (by decide),
    h "trim_blocks" (by decide)]
  rfl

/-- Under the default options, what is printed is escaped. -/
theorem Compiles.isPageOf (h : Compiles v ps) : IsPageOf v ps := by
  obtain ⟨options, text, g, hunset, hv, hreads⟩ := h
  unfold Reads at hreads
  unfold compilePage at hv
  rw [hunset.settingsOf_eq] at hv
  simp only [Bind.bind, Except.bind, hreads] at hv
  obtain rfl := Except.ok.inj hv
  exact ⟨g, _, rfl, rfl, rfl⟩

/-- A page is rendered with the entries that it is called with, if texts name them. -/
theorem callTemplate_page (rt : Runtime) (g : Nat) (p : Page) {es : List (Value × Value)}
    (hes : TextKeys es) :
    callTemplate rt (.page g p) es = renderPage rt rt.depth p (Value.stringFields es) := by
  have hmodel : modelOf (.dict es) [] = .ok (Value.stringFields es) := by
    cases es with
    | nil => rfl
    | cons f es => exact if_pos hes
  change (modelOf (.dict es) [] >>= renderPage rt rt.depth p) = _
  rw [hmodel]
  rfl

/-- A page is called as it is rendered. -/
theorem IsPageOf.callTemplate_eq (hv : IsPageOf v ps) {others : List String} {book : Book}
    {es : List (Value × Value)} (hes : TextKeys es) {σ : Bindings}
    (htold : Told others book (Value.stringFields es) σ) {rt : Runtime} {depth : Nat}
    (hd : depth < rt.depth) (hps : book.Fits others depth σ ps) :
    callTemplate rt v es = .ok (.markup (book.expand depth σ ps)) := by
  obtain ⟨g, p, rfl, hescapes, hbody⟩ := hv
  rw [callTemplate_page rt g p hes]
  exact htold.renderPage_eq hd hps hescapes hbody

end CachedViews.Template

namespace CachedViews.Engine

open CachedViews.Template (Piece Book Content Bindings Operand Told Reads Compiles IsPageOf Unset)

/-! ### Scripts -/

/-- The pieces that the templates of a view consist of. -/
structure Script where
  view : List Piece
  layout : List Piece
  partials : Book

/-- The content of a value that is a text. -/
def content? : Value → Option Content
  | .str s => some (.plain s)
  | .markup s => some (.markup s)
  | _ => none

/-- What the variables of a view hold, as far as they are texts. -/
def bindingsOf (entries : List (Value × Value)) : Bindings := fun x =>
  (Value.entry? x (contextOf entries)).bind content?

/-- The names in a layout around a body: the body is markup. -/
def Script.around (body : String) (σ : Bindings) : Bindings := fun x =>
  if x = "body" then some (.markup body) else σ x

namespace Script

variable (s : Script) (depth : Nat) (σ : Bindings)

/-- The text of the view by itself. -/
def body : String := s.partials.expand depth σ s.view

/-- The text of the view, in its layout or by itself. -/
def text (inLayout : Bool) : String :=
  if inLayout then s.partials.expand depth (around (s.body depth σ) σ) s.layout
  else s.body depth σ

/-- The pieces of the view and of its layout fit, and calls are not nested deeper than the
depth. -/
def Fits (others : List String) (inLayout : Bool) : Prop :=
  s.partials.Fits others depth σ s.view ∧ (inLayout →
    s.partials.Fits others depth (around (s.body depth σ) σ) s.layout)

end Script

/-- The templates of a view are compiled under the default options, and consist of the pieces of
the script. -/
structure Scripted (e : Engine) (path : String) (parts : ViewParts) (L : Lookups)
    (s : Script) : Prop where
  compiler : e.compiler = .pages
  options : Unset e.config.compilerOptions
  view : ∀ text, L.text (Path.absolute e.cwd path) = .ok text → Reads text s.view
  layout : ∀ file v, parts.layout = some (file, v) →
    ∀ text, L.text (Path.absolute e.cwd file) = .ok text → Reads text s.layout
  partials : ∀ n ps, s.partials.lookup n = some ps →
    ∃ v, parts.partials.lookup n = some v ∧ Compiles v ps

/-- The names that may stand for something else than a text: helpers, what every template knows,
and the variables that hold something else. -/
def othersOf (e : Engine) (entries : List (Value × Value)) : List String :=
  (e.helpersOf entries).map Prod.fst ++ Template.builtinNames ++
    ((Value.stringFields (contextOf entries)).filter fun f => (content? f.2).isNone).map Prod.fst

/-- A view that looks up the given answers comes to the text: on a new engine, through the caches,
where what they hold takes the place of what the files say, and without them, whatever they hold
and whatever else is in flight. -/
structure Answers (e : Engine) (file options : Value) (L : Lookups) (text : String) : Prop where
  fresh : ∀ tree, lookupsOf (e.world tree 0) = L → e.ComesTo tree {} file options (.ok (.str text))
  cached : ∀ trees d tree, e.Reached trees d → AtRest d → Caches options →
    lookupsOf (e.overlay d tree 0) = L → e.ComesTo tree d file options (.ok (.str text))
  uncached : ∀ d tree, Board.Reaches (σ := signature) e.program {} d → ¬Caches options →
    lookupsOf (e.world tree 0) = L →
      Board.ConcludesAmid e.program (e.CurrentTree tree) d.tasks.length
        (started (.view file options) d) ∧
      ∀ o, e.JobEndsAmid tree d (.view file options) o → o = .ok (.value (.str text))

variable {e : Engine} {path : String} {entries : List (Value × Value)} {parts : ViewParts}
  {file options : Value} {L : Lookups} {s : Script}

/-! ### What templates are told -/

theorem Scripted.compiles_of_gives (hs : e.Scripted path parts L s) {name : String} {v : Value}
    {ps : List Piece} (hgives : e.Gives L name v)
    (hreads : ∀ text, L.text name = .ok text → Reads text ps) : Compiles v ps := by
  obtain ⟨text, htext, hcompile⟩ := hgives
  rw [hs.compiler] at hcompile
  refine ⟨_, text, 0, fun key hkey => ?_, hcompile, hreads text htext⟩
  -- the file and the compiler are told under names that no page depends on
  have hother : key ≠ "name" ∧ key ≠ "compiler" := by
    constructor <;>
    · rintro rfl
      exact absurd hkey (by decide)
  change (Value.insertField "name" _ (Value.insertField "compiler" _ _)).lookup key = none
  rw [lookup_insertField, if_neg hother.1, lookup_insertField, if_neg hother.2]
  exact hs.options key hkey

theorem LookupsSucceed.gives_layout (hl : e.LookupsSucceed path entries parts L) {at_ : String}
    {v : Value} (h : parts.layout = some (at_, v)) : e.Gives L (Path.absolute e.cwd at_) v := by
  have hlayout := hl.layout
  rw [h] at hlayout
  cases hn : e.layoutOf entries with
  | none =>
    rw [hn] at hlayout
    exact absurd hlayout (Option.some_ne_none _)
  | some name =>
    rw [hn] at hlayout
    obtain ⟨w, hgives, hparts⟩ := hlayout
    obtain ⟨hfile, hv⟩ := Prod.mk.inj (Option.some.inj hparts)
    rw [hfile, hv]
    exact hgives

/-- A template is told its variables, and under the name `view` what brings the partials and the
helpers. -/
theorem told_insertField {others : List String} {book : Book} {about : RenderMeta}
    {vars : List (String × Value)} {σ : Bindings}
    (hbook : ∀ n ps, book.lookup n = some ps →
      ∃ v, about.partials.lookup n = some v ∧ IsPageOf v ps)
    (hothers : ∀ x, x ∉ others → about.helpers.lookup x = none ∧ x ∉ Template.builtinNames)
    (hvars : ∀ x, Template.Readable others σ x → Template.Bound (vars.lookup x) (σ x))
    (hcaller : vars.lookup "partial" = none) :
    Told others book (Value.insertField "view" about.value vars) σ := by
  have hmeta : Template.metaFields (Value.insertField "view" about.value vars) =
      [("file_path", .str about.filePath), ("view", RenderMeta.optionalText about.view),
        ("layout", RenderMeta.optionalText about.layout), ("cache", .bool about.cache),
        ("helpers", Value.ofFields about.helpers),
        ("partials", Value.ofFields about.partials)] := by
    unfold Template.metaFields
    rw [lookup_insertField, if_pos rfl]
    rfl
  have hhelp : Template.helpersOf (Value.insertField "view" about.value vars) = about.helpers := by
    unfold Template.helpersOf
    rw [hmeta]
    exact stringFields_map about.helpers
  have hpart : Template.partialsOf (Value.insertField "view" about.value vars) =
      Value.ofFields about.partials := by
    unfold Template.partialsOf
    rw [hmeta]
    change (if (Value.ofFields about.partials).isTrue then _ else _) = _
    cases about.partials <;> rfl
  exact {
    contents := fun x hx => by
      have hview : x ≠ "view" := fun he => hx.1 (he ▸ by decide)
      rw [lookup_insertField, if_neg hview]
      exact hvars x hx
    caller := by
      rw [lookup_insertField, if_neg (by decide)]
      exact hcaller
    checked := by
      unfold Template.checkMeta
      rw [lookup_insertField, if_pos rfl]
      rfl
    helpers := fun x hx => by
      rw [hhelp]
      exact hothers x hx
    partials := fun c ps hps => by
      obtain ⟨v, hv, hpage⟩ := hbook c.text ps hps
      rw [hpart]
      exact ⟨v, Template.partialOf_ofFields hv, hpage⟩ }

theorem Scripted.told (hs : e.Scripted path parts L s) {about : RenderMeta}
    (hhelpers : about.helpers = e.helpersOf entries) (hpartials : about.partials = parts.partials)
    {vars : List (Value × Value)} {σ : Bindings}
    (hvars : ∀ x, Template.Readable (e.othersOf entries) σ x →
      Template.Bound (Value.entry? x vars) (σ x))
    (hcaller : Value.entry? "partial" vars = none) :
    Told (e.othersOf entries) s.partials
      (Value.stringFields (Value.insertEntry (.str "view") about.value vars)) σ := by
  simp only [← lookup_stringFields] at hvars hcaller
  rw [stringFields_insertEntry rfl]
  refine told_insertField (fun n ps hps => ?_) (fun x hx => ?_) hvars hcaller
  · obtain ⟨v, hv, hcompiles⟩ := hs.partials n ps hps
    exact ⟨v, hpartials ▸ hv, hcompiles.isPageOf⟩
  · simp only [othersOf, List.mem_append, not_or] at hx
    obtain ⟨⟨hhelper, hbuiltin⟩, -⟩ := hx
    rw [hhelpers]
    exact ⟨lookup_eq_none_of_not_mem fun k hk he =>
      hhelper (List.mem_map.2 ⟨k, hk, he⟩), hbuiltin⟩

/-! ### The composition of a scripted view -/

theorem bound_context {x : String}
    (hx : Template.Readable (e.othersOf entries) (bindingsOf entries) x) :
    Template.Bound (Value.entry? x (contextOf entries)) (bindingsOf entries x) := by
  unfold bindingsOf
  cases hv : Value.entry? x (contextOf entries) with
  | none => exact .unbound
  | some v =>
    cases hc : content? v with
    | some c =>
      rw [Option.bind_some, hc]
      obtain rfl : v = c.value := by
        cases v <;> cases hc <;> rfl
      exact .content c
    | none =>
      -- a variable that holds something else cannot be read
      have hother : x ∈ e.othersOf entries := List.mem_append_right _
        (List.mem_map.2 ⟨(x, v), List.mem_filter.2
          ⟨mem_of_lookup ((lookup_stringFields _ x).trans hv), by simp [hc]⟩, rfl⟩)
      exact absurd (by simp [bindingsOf, hv, hc]) (hx.2 hother)

/-- **A scripted view is composed of its expansion.** -/
theorem Scripted.composed_eq (hs : e.Scripted path parts L s)
    (hl : e.LookupsSucceed path entries parts L) (htexts : TextKeys (contextOf entries))
    (hcaller : Value.entry? "partial" (contextOf entries) = none) {depth : Nat}
    (hd : depth < e.runtime.depth)
    (hf : s.Fits depth (bindingsOf entries) (e.othersOf entries) parts.layout.isSome) :
    e.composed path entries parts =
      .ok (.str (s.text depth (bindingsOf entries) parts.layout.isSome)) := by
  have hview := hs.compiles_of_gives hl.template hs.view
  have hbody : e.bodyOf path entries parts = .ok (.markup (s.body depth (bindingsOf entries))) :=
    hview.isPageOf.callTemplate_eq (htexts.insertEntry _ _)
      (hs.told rfl rfl (fun _ hx => bound_context hx) hcaller) hd hf.1
  unfold composed
  rw [hbody]
  change e.wrapped path entries parts _ = _
  unfold wrapped
  cases hlayout : parts.layout with
  | none => rfl
  | some found =>
    obtain ⟨at_, v⟩ := found
    rw [hlayout] at hf
    have hframe := hs.compiles_of_gives (hl.gives_layout hlayout) (hs.layout at_ v hlayout)
    let text := s.body depth (bindingsOf entries)
    have hvars : ∀ x, Template.Readable (e.othersOf entries)
        (Script.around text (bindingsOf entries)) x →
          Template.Bound
            (Value.entry? x (Value.insertEntry (.str "body") (.markup text) (contextOf entries)))
            (Script.around text (bindingsOf entries) x) := fun x hx => by
      rw [entry?_insertEntry rfl]
      unfold Template.Readable Script.around at hx
      unfold Script.around
      by_cases hbody : x = "body"
      · rw [if_pos hbody, if_pos hbody]
        exact .content (.markup text)
      · rw [if_neg hbody] at hx
        rw [if_neg hbody, if_neg hbody]
        exact bound_context hx
    have hcaller' : Value.entry? "partial"
        (Value.insertEntry (.str "body") (.markup text) (contextOf entries)) = none := by
      rw [entry?_insertEntry rfl, if_neg (by decide)]
      exact hcaller
    let about : RenderMeta := { e.aboutView path entries parts with
      filePath := Path.absolute e.cwd at_, layout := none }
    have habout : about.helpers = e.helpersOf entries ∧ about.partials = parts.partials := ⟨rfl, rfl⟩
    have hwhole := hframe.isPageOf.callTemplate_eq
      ((htexts.insertEntry "body" (.markup text)).insertEntry "view" about.value)
      (hs.told habout.1 habout.2 hvars hcaller') hd (hf.2 rfl)
    dsimp only
    rw [hwhole]
    rfl

/-- **Escaping happens once.** A view whose templates consist of literals, printed names and calls
of partials comes to their expansion, in which every plain text is escaped once and all markup
stands as it is, if its variables have texts for names and its calls are not nested too deep. -/
theorem view_escaped_once (hr : e.HostRequest path entries file options)
    (hl : e.LookupsSucceed path entries parts L) (hs : e.Scripted path parts L s)
    (htexts : TextKeys (contextOf entries))
    (hcaller : Value.entry? "partial" (contextOf entries) = none) {depth : Nat}
    (hd : depth < e.runtime.depth)
    (hf : s.Fits depth (bindingsOf entries) (e.othersOf entries) parts.layout.isSome) :
    e.Answers file options L (s.text depth (bindingsOf entries) parts.layout.isSome) := by
  have hcomposed := hs.composed_eq hl htexts hcaller hd hf
  have hfresh : ∀ tree, lookupsOf (e.world tree 0) = L → e.ComesTo tree {} file options
      (.ok (.str (s.text depth (bindingsOf entries) parts.layout.isSome))) := by
    rintro tree rfl
    rw [← hcomposed]
    exact comesTo_composed hr hl (settled_new e _) (answer_world e tree) (allowed_new e _ _)
  exact {
    fresh := hfresh
    cached := by
      rintro trees d tree hd hrest hc rfl
      rw [← hcomposed]
      exact comesTo_composed (R := e.cachedRegime d tree) hr hl
        (settled_cached hd.recorded hrest tree) (answer_cached e d tree)
        (allowed_cached e d tree file hc)
    uncached := fun d tree hd hc htree => by
      have hj : Chooses false (.view file options) := iff_of_false hc (by decide)
      have hfree : e.HistoryFree tree d (.view file options) := historyFree_of_reaches hd hj
      exact ⟨hfree.concludes, fun o ho => (hfresh tree htree).2 o ((hfree.outcomes o).1 ho)⟩ }

/-! ### Lookups in a tree -/

/-- The parts that are looked up for a view. -/
def partsAt (e : Engine) (path : String) (entries : List (Value × Value)) (L : Lookups) :
    ViewParts where
  template := (templateAt? e L (Path.absolute e.cwd path)).getD .null
  partials := (givenPartials? entries).getD
    (partialValues ((partialsAt? e L (e.sourcesOf entries)).getD []))
  layout := (e.layoutOf entries).map fun name =>
    let file := layoutFile e.cwd (e.layoutsDirOf entries) e.config.extname name
    (file, (templateAt? e L (Path.absolute e.cwd file)).getD .null)

theorem lookupsSucceed_partsAt
    (htemplate : (templateAt? e L (Path.absolute e.cwd path)).isSome = true)
    (hpartials : givenPartials? entries = none →
      (partialsAt? e L (e.sourcesOf entries)).isSome = true)
    (hlayout : ∀ name, e.layoutOf entries = some name → (templateAt? e L (Path.absolute e.cwd
      (layoutFile e.cwd (e.layoutsDirOf entries) e.config.extname name))).isSome = true) :
    e.LookupsSucceed path entries (e.partsAt path entries L) L where
  template := gives_templateAt? htemplate
  partials := by
    unfold partsAt
    cases hg : givenPartials? entries with
    | none => exact ⟨_, partialsForecast_partialsAt? (hpartials hg), rfl⟩
    | some ps => rfl
  layout := by
    unfold partsAt
    cases hn : e.layoutOf entries with
    | none => rfl
    | some name => exact ⟨_, gives_templateAt? (hlayout name hn), rfl⟩

/-! ### A sign -/

/-- A sign with a word and a mark on it, and a frame around it. -/
def signScript : Script where
  view := [.output "word", .output "mark", .call (.quoted "small") [("line", .named "word")]]
  layout := [.literal "[", .output "body", .literal "]"]
  partials := [("small", [.literal "(", .output "line", .literal ")"])]

/-- The template of the sign. -/
def signView : String :=
  "\x7b\x7b word \x7d\x7d\x7b\x7b mark \x7d\x7d" ++
    "\x7b\x7b partial(\"small\", line=word) \x7d\x7d"

def signTree : FileTree where
  root := .directory
    [("v.html", .file (Text.encodeUtf8 signView.toList)),
      ("views", .directory [("layouts", .directory
        [("main.html", .file (Text.encodeUtf8 "[\x7b\x7b body \x7d\x7d]".toList))])])]

/-- The partial of the sign, compiled. -/
def smallPage : Value :=
  ((Template.compilePage [] "(\x7b\x7b line \x7d\x7d)").map (.page 0)).toOption.getD .null

def signOptions : List (Value × Value) :=
  [(.str "word", .str "<"), (.str "mark", .markup "<b>"), (.str "layout", .str "main"),
    (.str "partials", .dict [(.str "small", smallPage)])]

def signLookups : Lookups := lookupsOf (framedEngine.world signTree 0)

theorem compiles_smallPage :
    Compiles smallPage [.literal "(", .output "line", .literal ")"] := by
  refine ⟨[], "(\x7b\x7b line \x7d\x7d)", 0, fun _ _ => rfl, ?_,
    Template.reads_source (by decide) (by decide)⟩
  have hsome : ((Template.compilePage [] "(\x7b\x7b line \x7d\x7d)").map
      (Value.page 0)).toOption.isSome = true := by decide +kernel
  obtain ⟨v, hv⟩ := Option.isSome_iff_exists.1 hsome
  rw [eq_ok_of_toOption hv, smallPage, hv]
  rfl

theorem hostRequest_sign : framedEngine.HostRequest "/v.html" signOptions (.str "/v.html")
    (.dict signOptions) where
  entries_eq := rfl
  path_eq := rfl
  named := fun h => absurd rfl h
  layout := fun v hv => by
    obtain rfl : Value.str "main" = v := Option.some.inj hv
    exact .inr (.inr nofun)
  helpers := fun v hv => nomatch (hv : none = some v)
  configured := fun _ hf => nomatch hf
  partials := fun v hv => by
    obtain rfl : Value.dict [(.str "small", smallPage)] = v := Option.some.inj hv
    exact .inr ⟨_, rfl, fun f hf => List.mem_singleton.1 hf ▸ Option.some_ne_none "small"⟩

def signParts : ViewParts := framedEngine.partsAt "/v.html" signOptions signLookups

theorem lookupsSucceed_sign :
    framedEngine.LookupsSucceed "/v.html" signOptions signParts signLookups := by
  refine lookupsSucceed_partsAt (by decide +kernel) (fun h => nomatch h) fun name hname => ?_
  obtain rfl : "main" = name := Option.some.inj hname
  decide +kernel

theorem small_of_lookup {n : String} {ps : List Piece}
    (h : signScript.partials.lookup n = some ps) :
    n = "small" ∧ ps = [.literal "(", .output "line", .literal ")"] := by
  rw [signScript, List.lookup_cons] at h
  split at h
  · rename_i hn
    exact ⟨beq_iff_eq.1 hn, (Option.some.inj h).symm⟩
  · cases h

theorem scripted_sign : framedEngine.Scripted "/v.html" signParts signLookups signScript where
  compiler := rfl
  options := fun _ _ => rfl
  view := fun text htext => by
    have hview : signLookups.text (Path.absolute framedEngine.cwd "/v.html") =
        .ok signView := by decide
    obtain rfl := Except.ok.inj (hview.symm.trans htext)
    exact Template.reads_source (by decide) (by decide)
  layout := fun file v hlayout text htext => by
    have hfile : signParts.layout.map Prod.fst = some "/views/layouts/main.html" := by decide
    rw [hlayout] at hfile
    obtain rfl : file = "/views/layouts/main.html" := Option.some.inj hfile
    have hframe : signLookups.text (Path.absolute framedEngine.cwd "/views/layouts/main.html") =
        .ok "[\x7b\x7b body \x7d\x7d]" := by
      decide
    obtain rfl := Except.ok.inj (hframe.symm.trans htext)
    exact Template.reads_source (by decide) (by decide)
  partials := fun n ps hps => by
    obtain ⟨rfl, rfl⟩ := small_of_lookup hps
    exact ⟨smallPage, rfl, compiles_smallPage⟩

/-- The sign fits: its partial calls no other. -/
theorem fits_sign : signScript.Fits 1 (bindingsOf signOptions) (framedEngine.othersOf signOptions)
    true := by
  have hothers : framedEngine.othersOf signOptions = Template.builtinNames := by decide
  rw [hothers]
  have hbook : ∀ n ps, signScript.partials.lookup n = some ps → ∀ p ∈ ps,
      p.Plain signScript.partials Template.builtinNames := by
    intro n ps hps
    obtain ⟨-, rfl⟩ := small_of_lookup hps
    decide
  have hacyclic : ∀ n, ¬Relation.TransGen signScript.partials.Invokes n n := by
    intro n hn
    obtain ⟨m, ⟨ps, extras, hps, hmem⟩, -⟩ := Relation.TransGen.head'_iff.1 hn
    obtain ⟨-, rfl⟩ := small_of_lookup hps
    simp at hmem
  exact ⟨Book.fits_of_acyclic hbook hacyclic (by decide) _,
    fun _ => Book.fits_of_acyclic hbook hacyclic (by decide) _⟩

/-- The word on the sign is escaped once, also where the partial prints it, and the mark and what
the frame is around are not. -/
theorem view_escaped_once_sign :
    framedEngine.HostRequest "/v.html" signOptions (.str "/v.html") (.dict signOptions) ∧
      framedEngine.LookupsSucceed "/v.html" signOptions signParts signLookups ∧
      framedEngine.Scripted "/v.html" signParts signLookups signScript ∧
      TextKeys (contextOf signOptions) ∧ Value.entry? "partial" (contextOf signOptions) = none ∧
      1 < framedEngine.runtime.depth ∧
      signScript.Fits 1 (bindingsOf signOptions) (framedEngine.othersOf signOptions)
        signParts.layout.isSome ∧
      framedEngine.Answers (.str "/v.html") (.dict signOptions) signLookups
        "[&lt;<b>(&lt;)]" := by
  have hdepth : 1 < framedEngine.runtime.depth := by decide
  have hlayout : signParts.layout.isSome = true := by decide
  have hfits := hlayout.symm ▸ fits_sign
  have htext : signScript.text 1 (bindingsOf signOptions) signParts.layout.isSome =
      "[&lt;<b>(&lt;)]" := by decide
  refine ⟨hostRequest_sign, lookupsSucceed_sign, scripted_sign, rfl, rfl, hdepth, hfits, ?_⟩
  rw [← htext]
  exact view_escaped_once hostRequest_sign lookupsSucceed_sign scripted_sign rfl rfl hdepth hfits

/-! ### Views that do not come to their expansion -/

/-- A view, and a partial that prints its name. -/
def labelTree (view : String) : FileTree where
  root := .directory
    [("v.html", .file (Text.encodeUtf8 view.toList)),
      ("views", .directory [("partials", .directory
        [("q.html", .file (Text.encodeUtf8 "\x7b\x7b name \x7d\x7d".toList))])])]

/-- It is called with a variable that has the name of its parameter. -/
def namingView : String := "\x7b\x7b partial(\"q\", name=\"x\") \x7d\x7d"

/-- The name that templates have for themselves. -/
def selfView : String := "\x7b\x7b self \x7d\x7d"

def labelOptions : List (Value × Value) := [(.str "self", .str "x")]

/-- What a view of a label comes to. -/
def labelView (view : String) : Except Fault Value :=
  framedEngine.composed "/v.html" labelOptions (framedEngine.partsAt "/v.html" labelOptions
    (lookupsOf (framedEngine.world (labelTree view) 0)))

theorem comesTo_label {view : String} (htemplate : (templateAt? framedEngine (lookupsOf
      (framedEngine.world (labelTree view) 0)) "/v.html").isSome = true)
    (hpartials : (partialsAt? framedEngine (lookupsOf (framedEngine.world (labelTree view) 0))
      (framedEngine.sourcesOf labelOptions)).isSome = true) :
    framedEngine.ComesTo (labelTree view) {} (.str "/v.html") (.dict labelOptions)
      (labelView view) := by
  have hr : framedEngine.HostRequest "/v.html" labelOptions (.str "/v.html")
      (.dict labelOptions) := {
    entries_eq := rfl
    path_eq := rfl
    named := fun h => absurd rfl h
    layout := fun v hv => nomatch (hv : none = some v)
    helpers := fun v hv => nomatch (hv : none = some v)
    configured := fun _ hf => nomatch hf
    partials := fun v hv => nomatch (hv : none = some v) }
  have hfile : Path.absolute framedEngine.cwd "/v.html" = "/v.html" := by decide
  have hl : framedEngine.LookupsSucceed "/v.html" labelOptions _
      (lookupsOf (framedEngine.world (labelTree view) 0)) :=
    lookupsSucceed_partsAt (hfile.symm ▸ htemplate) (fun _ => hpartials) fun _ h => nomatch h
  exact comesTo_composed hr hl (settled_new _ _) (answer_world _ _) (allowed_new _ _ _)

/-- The name of the partial on a rung. -/
def rung (n : Nat) : String := String.ofList (List.replicate (n + 1) 'p')

/-- The partial on a rung calls the one below. -/
def rungPieces : Nat → List Piece
  | 0 => []
  | n + 1 => [.call (.quoted (rung n)) []]

/-- Partials of which each calls the one below. -/
def ladder : Nat → Book
  | 0 => [(rung 0, rungPieces 0)]
  | n + 1 => (rung (n + 1), rungPieces (n + 1)) :: ladder n

theorem length_rung (n : Nat) : (rung n).length = n + 1 := by
  simp [rung]

theorem lookup_ladder {i n : Nat} (h : i ≤ n) :
    (ladder n).lookup (rung i) = some (rungPieces i) := by
  induction n with
  | zero =>
    obtain rfl := Nat.le_zero.1 h
    exact List.lookup_cons_self
  | succ n ih =>
    by_cases hi : i = n + 1
    · subst hi
      exact List.lookup_cons_self
    · have hne : rung i ≠ rung (n + 1) := fun he => hi (by
        have := congrArg String.length he
        rw [length_rung, length_rung] at this
        omega)
      rw [ladder, List.lookup_cons, beq_false_of_ne hne]
      exact ih (by omega)

theorem rung_of_lookup {n : Nat} {m : String} {ps : List Piece}
    (h : (ladder n).lookup m = some ps) :
    ∃ i, i ≤ n ∧ m = rung i ∧ ps = rungPieces i := by
  induction n with
  | zero =>
    rw [ladder, List.lookup_cons] at h
    split at h
    · rename_i hm
      exact ⟨0, le_rfl, beq_iff_eq.1 hm, (Option.some.inj h).symm⟩
    · cases h
  | succ n ih =>
    rw [ladder, List.lookup_cons] at h
    split at h
    · rename_i hm
      exact ⟨n + 1, le_rfl, beq_iff_eq.1 hm, (Option.some.inj h).symm⟩
    · obtain ⟨i, hi, hm, hps⟩ := ih h
      exact ⟨i, by omega, hm, hps⟩

/-- Calls on a ladder lead downwards. -/
theorem acyclic_ladder (n : Nat) (m : String) : ¬Relation.TransGen (ladder n).Invokes m m := by
  have hstep : ∀ a b, (ladder n).Invokes a b → b.length < a.length := by
    rintro a b ⟨ps, extras, hps, hmem⟩
    obtain ⟨i, -, rfl, rfl⟩ := rung_of_lookup hps
    cases i with
    | zero => cases hmem
    | succ i =>
      obtain ⟨rfl, -⟩ : b = rung i ∧ extras = [] := by simpa [rungPieces] using hmem
      rw [length_rung, length_rung]
      omega
  have hrun : ∀ a b, Relation.TransGen (ladder n).Invokes a b → b.length < a.length := by
    intro a b h
    induction h with
    | single h => exact hstep _ _ h
    | tail _ h ih => exact (hstep _ _ h).trans ih
  exact fun h => absurd (hrun m m h) (lt_irrefl _)

theorem descends_ladder {n i depth : Nat} (hi : i ≤ n) (hd : depth ≤ i + 1) :
    (ladder n).Descends depth [.call (.quoted (rung i)) []] := by
  induction depth generalizing i with
  | zero => trivial
  | succ depth ih =>
    refine ⟨rung i, [], rungPieces i, rfl, lookup_ladder hi, ?_⟩
    cases i with
    | zero =>
      obtain rfl : depth = 0 := by omega
      trivial
    | succ i => exact ih (by omega) (by omega)

/-- The page of pieces. -/
def pageOf (ps : List Piece) : Value := .page 0 ⟨none, true, ps.map Piece.node⟩

/-- What the templates on a ladder are told about their render. -/
def aboutLadder (n : Nat) : RenderMeta where
  filePath := "/v.html"
  view := none
  layout := none
  cache := false
  helpers := []
  partials := (ladder n).map fun f => (f.1, pageOf f.2)

theorem told_ladder (n : Nat) : Told Template.builtinNames (ladder n)
    (Value.insertField "view" (aboutLadder n).value []) fun _ => none := by
  refine told_insertField (fun m ps hps => ?_) (fun x hx => ⟨rfl, hx⟩) (fun _ _ => .unbound) rfl
  refine ⟨pageOf ps, ?_, 0, _, rfl, rfl, rfl⟩
  change ((ladder n).map fun f => (f.1, pageOf f.2)).lookup m = _
  rw [lookup_map_snd, hps]
  rfl

/-- Calls from as high as the bound fail. -/
theorem callTemplate_ladder (rt : Template.Runtime) {n : Nat} (hn : rt.depth ≤ n + 1) :
    Template.callTemplate rt (pageOf [.call (.quoted (rung n)) []])
      [(.str "view", (aboutLadder n).value)] = .error .recursion := by
  have htexts : TextKeys [(.str "view", (aboutLadder n).value)] := rfl
  rw [pageOf, Template.callTemplate_page rt _ _ htexts]
  exact (told_ladder n).renderPage_descends (descends_ladder le_rfl hn) rfl rfl

/-- The fault of a result. -/
def failureOf? {α : Type} : Except Fault α → Option Fault
  | .ok _ => none
  | .error f => some f

/-- What is called `name` cannot be handed on to a partial, `self` is no variable, and calls that
are nested as deep as the bound fail, even without cycles. -/
theorem expansion_missed :
    (Book.expand [("q", [.output "name"])] 1 (bindingsOf labelOptions)
        [.call (.quoted "q") [("name", .quoted "x")]] = "x" ∧
      Reads namingView
        [.call (.quoted "q") [("name", .quoted "x")]] ∧
      framedEngine.ComesTo (labelTree namingView) {} (.str "/v.html")
        (.dict labelOptions) (.error (.type
          (.repeatedArgument "CompiledTemplate.__call__.<locals>.partial" "name")))) ∧
    (Book.expand [] 0 (bindingsOf labelOptions) [.output "self"] = "x" ∧
      Reads selfView [.output "self"] ∧
      ∀ o, framedEngine.ViewEnds (framedEngine.world (labelTree selfView)) {}
        (.str "/v.html") (.dict labelOptions) o →
          o.toOption.map (·.asValue.text) = some "&lt;TemplateReference None&gt;") ∧
    ∀ rt : Template.Runtime, ∃ n, (∀ m, ¬Relation.TransGen (ladder n).Invokes m m) ∧
      Template.callTemplate rt (pageOf [.call (.quoted (rung n)) []])
        [(.str "view", (aboutLadder n).value)] = .error .recursion := by
  refine ⟨⟨by decide, Template.reads_source (by decide) (by decide), ?_⟩,
    ⟨by decide, Template.reads_source (by decide) (by decide), ?_⟩,
    fun rt => ⟨rt.depth, acyclic_ladder rt.depth, callTemplate_ladder rt (Nat.le_succ _)⟩⟩
  · have hfault : failureOf? (labelView namingView) = some (.type
        (.repeatedArgument "CompiledTemplate.__call__.<locals>.partial" "name")) := by
      decide +kernel
    have hcomes : framedEngine.ComesTo (labelTree namingView) {}
        (.str "/v.html") (.dict labelOptions)
          (labelView namingView) :=
      comesTo_label (by decide +kernel) (by decide +kernel)
    cases hv : labelView namingView with
    | ok v =>
      rw [hv] at hfault
      cases hfault
    | error f =>
      rw [hv] at hfault hcomes
      rw [← Option.some.inj hfault]
      exact hcomes
  · intro o ho
    have htext : (labelView selfView).toOption.map Value.text =
        some "&lt;TemplateReference None&gt;" := by decide +kernel
    rw [(comesTo_label (by decide +kernel) (by decide +kernel)).2 o ho]
    cases hv : labelView selfView with
    | ok v =>
      rw [hv] at htext
      exact htext
    | error f =>
      rw [hv] at htext
      cases htext

end CachedViews.Engine
