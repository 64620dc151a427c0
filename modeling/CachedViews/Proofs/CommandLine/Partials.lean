import CachedViews.Proofs.CommandLine.Shown
import CachedViews.Proofs.Config.Layers
import CachedViews.Proofs.Engine.Discovered
import CachedViews.Proofs.Listing.Listed
import CachedViews.Proofs.Web.Steering

/-
# The partials that are listed are those of a view

Two commands look for partials: one lists them, the other one prints a view that is rendered with
them. They settle where to look on ways of their own, from the configuration and the views
directory, but look in the same places (`CommandLine.RenderCommand.discovered`). So the listing ends
as the search of the view does: with a table that has rows for exactly its partials, each once and in
order, or with one of its faults (`CommandLine.partials_agree`).

The names are put into the table as they are, and the console takes them for marked-up texts: if one
of them holds a tag that closes nothing, the table is not shown, and the listing fails with a fault
of the markup although the partials are found.

Not every fault is reported in a line: one that is none of the library is passed on, for instance if
the options for templates cannot be used (`CommandLine.odd_options_not_reported`).

Key definitions: `CommandLine.RenderCommand.PartialsOf`, `CommandLine.RenderCommand.ListingEnds`,
`CommandLine.RenderCommand.PartialsAgree`.
Key theorems: `CommandLine.RenderCommand.hostRequest`, `CommandLine.RenderCommand.discovered`,
`CommandLine.partials_agree`.
-/

namespace CachedViews.CommandLine

open Engine (Product lookupsOf partialValues signature start)

/-- What comes of listing partials that came to this. -/
def tabulated (look : Console.Look) (r : Except Fault Product) : Except Fault Outcome := do
  let table := partialsTable (← r).asTemplates
  return .table table (← table.shown look)

/-- What comes of printing a view that came to this. -/
def printed (r : Except Fault Product) : Except Fault Outcome :=
  r.map fun p => .text (p.asValue.text ++ "\n")

namespace RenderCommand

variable (c : RenderCommand) (e : Engine)

/-- The file of the view. -/
def file : String := viewPath e.cwd e.config.extname c.views c.view

/-- The host options of the view, if there are no template variables. -/
def options : List (Value × Value) := viewOptions c.views [] c.layout

end RenderCommand

variable {h : Host} {c : RenderCommand} {e : Engine}

/-! ### The engine and the options -/

/-- Commands have an engine with a checked configuration in the working directory. -/
theorem engineOf_spec {choice : EngineChoice} (he : engineOf h choice = .ok e) :
    e.cwd = h.cwd ∧ e.config.Normal := by
  unfold engineOf at he
  dsimp only [bind, Except.bind] at he
  split at he
  · cases he
  · next config hload =>
    obtain rfl := Except.ok.inj he
    exact ⟨rfl, Config.normal_of_load hload⟩

/-- Of what a view can be asked for, only the views directory and the layout are said. -/
theorem RenderCommand.entry?_options (c : RenderCommand) {name : String} (hs : name ≠ "settings")
    (hl : name ≠ "layout") : Value.entry? name c.options = none := by
  have hsettings : ∀ v, Value.entry? name [(.str "settings", v)] = none := fun v =>
    if_neg hs.symm
  unfold options viewOptions
  cases c.layout with
  | usual => exact hsettings _
  | none => exact (entry?_insertEntry rfl _ _ _).trans ((if_neg hl).trans (hsettings _))
  | named layout => exact (entry?_insertEntry rfl _ _ _).trans ((if_neg hl).trans (hsettings _))

theorem RenderCommand.entry?_layout (c : RenderCommand) {v : Value}
    (hv : Value.entry? "layout" c.options = some v) : v = .null ∨ ∃ name, v = .str name := by
  unfold options viewOptions at hv
  cases hl : c.layout with
  | usual =>
    rw [hl] at hv
    cases (hv : none = some v)
  | none =>
    rw [hl] at hv
    dsimp only at hv
    rw [entry?_insertEntry rfl, if_pos rfl] at hv
    exact .inl (Option.some.inj hv).symm
  | named name =>
    rw [hl] at hv
    dsimp only at hv
    rw [entry?_insertEntry rfl, if_pos rfl] at hv
    exact .inr ⟨name, (Option.some.inj hv).symm⟩

theorem RenderCommand.viewsOf_options (c : RenderCommand) :
    Engine.viewsOf c.options = some c.views := by
  have hsettings : Value.entry? "settings" c.options =
      some (.dict [(.str "views", .str c.views)]) := by
    unfold options viewOptions
    cases c.layout with
    | usual => rfl
    | none => exact (entry?_insertEntry rfl _ _ _).trans (if_neg (by decide))
    | named layout => exact (entry?_insertEntry rfl _ _ _).trans (if_neg (by decide))
  rw [← Engine.viewsPath?_eq, Engine.viewsPath?, hsettings]
  rfl

/-- The options are as those of a request have to be. -/
theorem RenderCommand.hostRequest (hcwd : Path.isAbsolute h.cwd = true)
    (he : engineOf h c.engine = .ok e) :
    e.HostRequest (c.file e) c.options (.str (c.file e)) (.dict c.options) := by
  obtain ⟨hdir, hnormal⟩ := engineOf_spec he
  exact {
    entries_eq := Engine.entriesOf_dict _
    path_eq := rfl
    named := fun _ => by
      have habs : Path.isAbsolute (c.file e) = true :=
        Path.isAbsolute_absolute (hdir ▸ hcwd) _
      have hne : c.file e ≠ "" := by
        intro he
        rw [he] at habs
        exact absurd habs (by decide)
      simpa [Value.isTrue] using hne
    layout := fun v hv => by
      rcases c.entry?_layout hv with rfl | ⟨name, rfl⟩
      · exact .inl rfl
      · exact .inr (.inr (Option.some_ne_none name))
    helpers := fun v hv => by
      rw [c.entry?_options (by decide) (by decide)] at hv
      cases hv
    configured := callable_of_checkCallables hnormal.helpers
    partials := fun v hv => by
      rw [c.entry?_options (by decide) (by decide)] at hv
      cases hv }

theorem RenderCommand.not_caches (c : RenderCommand) : ¬Engine.Caches (.dict c.options) := by
  rintro ⟨entries, hentries, htrue⟩
  obtain rfl := Except.ok.inj ((Engine.entriesOf_dict _).symm.trans hentries)
  rw [c.entry?_options (by decide) (by decide)] at htrue
  cases htrue

theorem RenderCommand.givenPartials?_eq (c : RenderCommand) :
    Engine.givenPartials? c.options = none := by
  unfold Engine.givenPartials?
  rw [c.entry?_options (by decide) (by decide)]

/-! ### The two searches -/

/-- While the view is rendered, the search for its partials may end so. -/
def RenderCommand.PartialsOf (h : Host) (c : RenderCommand) (e : Engine)
    (r : Except Fault Product) : Prop :=
  e.PartialsEnd h.files (.str (c.file e)) (.dict c.options) r

/-- The search for the partials below the views directory of the view. -/
def RenderCommand.listing (c : RenderCommand) (e : Engine) : Engine.Job :=
  .partials (e.partialsBelow (some c.views)) false

/-- Listing the partials may come to this. -/
def RenderCommand.ListingEnds (h : Host) (c : RenderCommand) (e : Engine) (o : Outcome) : Prop :=
  ∃ r, e.JobEnds h.files (c.listing e) r ∧ o = Outcome.reporting h.look (tabulated h.look r)

/-- The commands settle in the same way where to look. -/
theorem RenderCommand.partialsBelow_views (c : RenderCommand) (e : Engine) :
    e.partialsBelow (some c.views) = e.sourcesOf c.options :=
  c.viewsOf_options ▸ Engine.partialsBelow_eq e c.options

/-- **A view looks for the partials that are listed**, and this ends as the listing may end. -/
theorem RenderCommand.discovered (hcwd : Path.isAbsolute h.cwd = true)
    (he : engineOf h c.engine = .ok e) :
    e.PartialsDiscovered h.files (.str (c.file e)) (.dict c.options)
      (e.partialsBelow (some c.views)) := by
  rw [c.partialsBelow_views e]
  exact Engine.partials_discovered (RenderCommand.hostRequest hcwd he) c.givenPartials?_eq
    c.not_caches h.files

/-! ### The rows -/

theorem increasing_partialsTable {found : List (String × Handle)}
    (hn : (found.map Prod.fst).Nodup) :
    ((partialsTable found).rows.map Prod.fst).Pairwise (· < ·) := by
  refine increasing_mergeSort Prod.fst ?_
  rw [List.map_map]
  exact hn

theorem names_partialsTable (found : List (String × Handle)) (name : String) :
    name ∈ (partialsTable found).rows.map Prod.fst ↔ name ∈ found.map Prod.fst := by
  have hperm := (List.mergeSort_perm _ _ : (partialsTable found).rows.Perm _).map Prod.fst
  rw [List.map_map] at hperm
  exact hperm.mem_iff

theorem map_name_eq (hs : List (String × Handle)) :
    (hs.map fun (name, t) => (name, t.name?.getD "")) =
      (partialValues hs).map fun f => (f.1, (Handle.name? ⟨none, f.2⟩).getD "") := by
  rw [partialValues, List.map_map]
  rfl

/-- The same templates under the same names make the same table. -/
theorem partialsTable_congr {found found' : List (String × Handle)}
    (h : partialValues found = partialValues found') :
    partialsTable found = partialsTable found' := by
  unfold partialsTable
  rw [map_name_eq, map_name_eq, h]

theorem plain_headings (found : List (String × Handle)) :
    Console.Plain (partialsTable found).title ∧
      Console.Plain (partialsTable found).headings.1 ∧
        Console.Plain (partialsTable found).headings.2 := by
  have h : Console.Plain "Partials" ∧ Console.Plain "Name" ∧ Console.Plain "Template" := by decide
  exact h

/-- A table of partials is shown exactly if all names in it can be. -/
theorem shown_partialsTable_iff (look : Console.Look) (found : List (String × Handle)) :
    (∃ seen, (partialsTable found).shown look = .ok seen) ↔
      ∀ row ∈ (partialsTable found).rows,
        Console.Showable look row.1 ∧ Console.Showable look row.2 := by
  obtain ⟨htitle, hfirst, hsecond⟩ := plain_headings found
  exact Table.shown_succeeds_iff.trans (and_iff_right
    ⟨⟨_, htitle.shown_eq look⟩, ⟨_, hfirst.shown_eq look⟩, ⟨_, hsecond.shown_eq look⟩⟩)

/-! ### The commands -/

/-- What could not be done has no exit code of success. -/
theorem exitCode_reporting_error (look : Console.Look) (f : Fault) :
    (Outcome.reporting look (.error f)).exitCode ≠ 0 := by
  cases f with
  | view v =>
    obtain ⟨line, hline⟩ := (reported_iff look (.view v)).2 ⟨v, rfl⟩
    rw [hline]
    exact Nat.one_ne_zero
  | _ => exact Nat.succ_ne_zero _

/-- A fault of the markup is passed on. -/
theorem reporting_of_markup {look : Console.Look} {f : Fault} (hf : f.kind = "MarkupError") :
    Outcome.reporting look (.error f) = .fault f := by
  have hown : ∀ kind : ReportKind, kind.name ≠ "MarkupError" := fun kind => by
    cases kind <;> decide
  cases f with
  | view v => exact absurd hf (hown v.report.kind)
  | unreadableContext path => exact absurd hf (by change ¬"BadParameter" = _; decide)
  | contextNotMapping path => exact absurd hf (by change ¬"BadParameter" = _; decide)
  | _ => rfl

/-- Partials that were found are listed in their table, if it can be shown. -/
theorem reporting_tabulated_ok (look : Console.Look) (p : Product) :
    (∃ seen, (partialsTable p.asTemplates).shown look = .ok seen ∧
      Outcome.reporting look (tabulated look (.ok p)) =
        .table (partialsTable p.asTemplates) seen) ∨
    ∃ f, (partialsTable p.asTemplates).shown look = .error f ∧ f.kind = "MarkupError" ∧
      Outcome.reporting look (tabulated look (.ok p)) = .fault f := by
  cases hseen : (partialsTable p.asTemplates).shown look with
  | ok seen =>
    have htab : tabulated look (.ok p) = .ok (.table (partialsTable p.asTemplates) seen) := by
      unfold tabulated
      dsimp only [bind, Except.bind]
      rw [hseen]
      rfl
    exact .inl ⟨seen, rfl, by rw [htab]; rfl⟩
  | error f =>
    have htab : tabulated look (.ok p) = .error f := by
      unfold tabulated
      dsimp only [bind, Except.bind]
      rw [hseen]
    have hkind := Table.kind_of_shown hseen
    exact .inr ⟨f, rfl, hkind, by rw [htab, reporting_of_markup hkind]⟩

/-- A listing succeeds exactly if the search does and all names can be shown. -/
theorem exitCode_tabulated (look : Console.Look) (r : Except Fault Product) :
    (Outcome.reporting look (tabulated look r)).exitCode = 0 ↔
      ∃ p, r = .ok p ∧ ∀ row ∈ (partialsTable p.asTemplates).rows,
        Console.Showable look row.1 ∧ Console.Showable look row.2 := by
  cases r with
  | ok p =>
    simp only [Except.ok.injEq, exists_eq_left', ← shown_partialsTable_iff]
    rcases reporting_tabulated_ok look p with ⟨seen, hseen, ho⟩ | ⟨f, hf, -, ho⟩
    · rw [ho]
      exact iff_of_true rfl ⟨seen, hseen⟩
    · rw [ho]
      exact iff_of_false Nat.one_ne_zero fun ⟨_, hseen⟩ => nomatch hf.symm.trans hseen
  | error f => exact iff_of_false (exitCode_reporting_error look f) nofun

/-- A listing is reported in a line exactly if the fault of the search is one of the library. -/
theorem reported_tabulated_iff (look : Console.Look) (r : Except Fault Product) :
    (∃ line, Outcome.reporting look (tabulated look r) = .reported line) ↔
      ∃ v, r = .error (.view v) := by
  cases r with
  | ok p =>
    refine iff_of_false ?_ nofun
    rintro ⟨line, hline⟩
    rcases reporting_tabulated_ok look p with ⟨seen, -, ho⟩ | ⟨f, -, -, ho⟩
    · cases ho.symm.trans hline
    · cases ho.symm.trans hline
  | error f =>
    refine (reported_iff look f).trans (exists_congr fun v => ?_)
    rw [Except.error.injEq]

/-- What is worked on until nothing is left to do has an outcome of some run. -/
theorem exists_run (e : Engine) (tree : FileTree) (job : Engine.Job) :
    ∃ b, e.LeadsTo tree job b ∧ (e.work tree job {}).1 = Engine.outcome b 0 := by
  refine ⟨e.settle tree (start job {}).2, ?_, rfl⟩
  exact Board.settle_keeps (fun _ t hb => hb.tail (.resume ⟨_, rfl⟩ t))
    (fun _ t hb => hb.tail (.complete ⟨_, rfl⟩ t)) _ .refl

theorem run_partials (he : engineOf h c.engine = .ok e) :
    Command.run h (.partials c.views c.engine) =
      Outcome.reporting h.look (tabulated h.look (e.work h.files (c.listing e) {}).1) := by
  refine congrArg (Outcome.reporting h.look) ?_
  unfold runPartials partialsOf tabulated RenderCommand.listing
  rw [he]
  dsimp only [bind, Except.bind]
  cases (e.work h.files (.partials (e.partialsBelow (some c.views)) false) {}).1 <;> rfl

theorem run_render (he : engineOf h c.engine = .ok e) (hc : c.context = none) :
    Command.run h (.render c) = Outcome.reporting h.look (printed
      (e.work h.files (.view (.str (c.file e)) (.dict c.options)) {}).1) := by
  refine congrArg (Outcome.reporting h.look) ?_
  unfold RenderCommand.run printed RenderCommand.file RenderCommand.options
  rw [he, hc]
  dsimp only [bind, Except.bind, readContext]
  cases (e.work h.files _ {}).1 <;> rfl

/-- Without an engine neither command does anything. -/
theorem run_without_engine {f : Fault} (hf : engineOf h c.engine = .error f) :
    Command.run h (.partials c.views c.engine) = Outcome.reporting h.look (.error f) ∧
      Command.run h (.render c) = Outcome.reporting h.look (.error f) := by
  refine ⟨congrArg (Outcome.reporting h.look) ?_, congrArg (Outcome.reporting h.look) ?_⟩
  · unfold runPartials
    rw [hf]
    rfl
  · unfold RenderCommand.run
    rw [hf]
    rfl

/-! ### The agreement -/

/-- Listing partials and rendering a view agree on the partials. -/
structure RenderCommand.PartialsAgree (h : Host) (c : RenderCommand) (e : Engine) : Prop where
  /-- The commands work on the listing and on the view, in one of the orders that there are. -/
  listing : ∃ b, e.LeadsTo h.files (c.listing e) b ∧
    Command.run h (.partials c.views c.engine) =
      Outcome.reporting h.look (tabulated h.look (Engine.outcome b 0))
  rendering : ∃ b, e.LeadsTo h.files (.view (.str (c.file e)) (.dict c.options)) b ∧
    Command.run h (.render c) = Outcome.reporting h.look (printed (Engine.outcome b 0))
  /-- The work on the listing comes to its end. -/
  concludes : Board.Concludes e.program (e.CurrentTree h.files) 0 (start (c.listing e) {}).2
  /-- When all work on the view is done, it has looked for its partials. -/
  sought : ∀ b, e.LeadsTo h.files (.view (.str (c.file e)) (.dict c.options)) b →
    e.AllDone h.files b → ∃ t r, Board.job? (σ := signature) b t = some (c.listing e) ∧
      Board.outcome? (σ := signature) b t = some r
  /-- The listing ends as the search of the view does. -/
  ends : ∀ o, c.ListingEnds h e o ↔
    ∃ r, c.PartialsOf h e r ∧ o = Outcome.reporting h.look (tabulated h.look r)
  /-- It fails exactly if the partials of the view cannot be found, or one of their names or those of
  their templates cannot be shown. -/
  fails : ∀ r o, c.PartialsOf h e r → c.ListingEnds h e o →
    (o.exitCode = 0 ↔ ∃ p, r = .ok p ∧ ∀ row ∈ (partialsTable p.asTemplates).rows,
      Console.Showable h.look row.1 ∧ Console.Showable h.look row.2)
  /-- A fault of the library, and no other one, is reported in a line. -/
  reported : (∃ line, c.ListingEnds h e (.reported line)) ↔ ∃ v, c.PartialsOf h e (.error (.view v))
  /-- The rows of the table have the names of the partials, each once and in order. The listing is
  the table, or a fault of its markup is passed on, which there is none of if no name holds a
  bracket that opens, a colon or a control character. -/
  rows : ∀ p o table, c.PartialsOf h e (.ok p) → c.ListingEnds h e o →
    table = partialsTable p.asTemplates →
    (table.rows.map Prod.fst).Pairwise (· < ·) ∧
    (∀ name, name ∈ table.rows.map Prod.fst ↔ name ∈ p.asTemplates.map Prod.fst) ∧
    ((∃ seen, table.shown h.look = .ok seen ∧ o = .table table seen) ∨
      ∃ f, table.shown h.look = .error f ∧ f.kind = "MarkupError" ∧ o = .fault f) ∧
    ((∀ row ∈ table.rows, Console.Plain row.1 ∧ Console.Plain row.2) → o = .table table table)
  /-- If all lookups of the view succeed, its templates are told of these partials. -/
  told : ∀ parts, e.LookupsSucceed (c.file e) c.options parts (lookupsOf (e.world h.files 0)) →
    e.ComesTo h.files {} (.str (c.file e)) (.dict c.options)
        (e.composed (c.file e) c.options parts) ∧
      ∀ r, c.PartialsOf h e r → ∃ p, r = .ok p ∧
        (e.aboutView (c.file e) c.options parts).partials = partialValues p.asTemplates

/-- The table is that of the partials that the view has found. -/
theorem RenderCommand.listed_eq (hcwd : Path.isAbsolute h.cwd = true)
    (he : engineOf h c.engine = .ok e) {p : Product} {o : Outcome}
    (hp : c.PartialsOf h e (.ok p)) (ho : c.ListingEnds h e o) :
    o = Outcome.reporting h.look (tabulated h.look (.ok p)) := by
  obtain ⟨r, hr, rfl⟩ := ho
  have hp := ((RenderCommand.discovered hcwd he).ends_iff _).1 hp
  obtain ⟨q, rfl, hvalues⟩ := Engine.partials_alike hp hr
  unfold tabulated
  dsimp only [bind, Except.bind]
  rw [partialsTable_congr hvalues]

theorem RenderCommand.rows_listed (hcwd : Path.isAbsolute h.cwd = true)
    (he : engineOf h c.engine = .ok e) {p : Product} {o : Outcome}
    (hp : c.PartialsOf h e (.ok p)) (ho : c.ListingEnds h e o) {table : Table}
    (htable : table = partialsTable p.asTemplates) :
    (table.rows.map Prod.fst).Pairwise (· < ·) ∧
      (∀ name, name ∈ table.rows.map Prod.fst ↔ name ∈ p.asTemplates.map Prod.fst) ∧
      ((∃ seen, table.shown h.look = .ok seen ∧ o = .table table seen) ∨
        ∃ f, table.shown h.look = .error f ∧ f.kind = "MarkupError" ∧ o = .fault f) ∧
      ((∀ row ∈ table.rows, Console.Plain row.1 ∧ Console.Plain row.2) → o = .table table table) := by
  subst htable
  have hfound := ((RenderCommand.discovered hcwd he).ends_iff _).1 hp
  rw [RenderCommand.listed_eq hcwd he hp ho]
  refine ⟨increasing_partialsTable (Engine.partials_foreseen hfound).2, names_partialsTable _,
    reporting_tabulated_ok h.look p, fun hplain => ?_⟩
  have hshown : (partialsTable p.asTemplates).shown h.look = .ok (partialsTable p.asTemplates) :=
    Table.shown_plain h.look (plain_headings _).1 (plain_headings _).2 hplain
  unfold tabulated
  dsimp only [bind, Except.bind]
  rw [hshown]
  rfl

/-- If all lookups of a view succeed, so does the search for its partials. -/
theorem RenderCommand.told_partials (hcwd : Path.isAbsolute h.cwd = true)
    (he : engineOf h c.engine = .ok e) {parts : Engine.ViewParts}
    (hl : e.LookupsSucceed (c.file e) c.options parts (lookupsOf (e.world h.files 0)))
    {r : Except Fault Product} (hr : c.PartialsOf h e r) : ∃ p, r = .ok p ∧
      (e.aboutView (c.file e) c.options parts).partials = partialValues p.asTemplates := by
  have hends := ((RenderCommand.discovered hcwd he).ends_iff r).1 hr
  have hfound := hl.partials
  rw [c.givenPartials?_eq] at hfound
  obtain ⟨hs, hforecast, hparts⟩ := hfound
  rw [c.partialsBelow_views e] at hends
  cases r with
  | ok p =>
    have hbare := (Engine.partials_foreseen hends).1
    rw [hforecast] at hbare
    obtain rfl := Engine.Product.templates.inj (Except.ok.inj hbare)
    exact ⟨p, rfl, hparts.trans (Engine.partialValues_bare _)⟩
  | error f =>
    obtain ⟨fs, hfs, -⟩ := (Engine.new_foreseen e h.files _).2 _ hends
    cases hforecast.symm.trans hfs

/-- **The partials that are listed are those of a view** that is rendered without a file of
template variables. -/
theorem partials_agree (h : Host) (c : RenderCommand) (hcwd : Path.isAbsolute h.cwd = true)
    (hcontext : c.context = none) :
    (∀ f, engineOf h c.engine = .error f →
      Command.run h (.partials c.views c.engine) = Outcome.reporting h.look (.error f) ∧
        Command.run h (.render c) = Outcome.reporting h.look (.error f)) ∧
    ∀ e, engineOf h c.engine = .ok e → c.PartialsAgree h e := by
  refine ⟨fun f hf => run_without_engine hf, fun e he => ?_⟩
  have hends := (RenderCommand.discovered hcwd he).ends_iff
  exact {
    listing := by
      obtain ⟨b, hb, hout⟩ := exists_run e h.files (c.listing e)
      exact ⟨b, hb, hout ▸ run_partials he⟩
    rendering := by
      obtain ⟨b, hb, hout⟩ := exists_run e h.files (.view (.str (c.file e)) (.dict c.options))
      exact ⟨b, hb, hout ▸ run_render he hcontext⟩
    concludes := (Engine.new_foreseen e h.files (c.listing e)).1
    sought := (RenderCommand.discovered hcwd he).concludes
    ends := fun o => exists_congr fun r => and_congr_left' (hends r).symm
    fails := by
      intro r o hr ho
      cases r with
      | ok p =>
        rw [RenderCommand.listed_eq hcwd he hr ho]
        exact exitCode_tabulated h.look (.ok p)
      | error f =>
        obtain ⟨r', hr', rfl⟩ := ho
        have halike := Engine.partials_end_well_alike hr' ((hends _).1 hr)
        refine iff_of_false (fun hzero => ?_) nofun
        obtain ⟨p, hp, -⟩ := (exitCode_tabulated h.look r').1 hzero
        obtain ⟨q, hq⟩ := halike.1 ⟨p, hp⟩
        cases hq
    reported := by
      constructor
      · rintro ⟨line, r, hr, hline⟩
        obtain ⟨v, rfl⟩ := (reported_tabulated_iff h.look r).1 ⟨line, hline.symm⟩
        exact ⟨v, (hends _).2 hr⟩
      · rintro ⟨v, hv⟩
        obtain ⟨line, hline⟩ := (reported_tabulated_iff h.look (.error (.view v))).2 ⟨v, rfl⟩
        exact ⟨line, _, (hends _).1 hv, hline.symm⟩
    rows := fun p o table hp ho htable => RenderCommand.rows_listed hcwd he hp ho htable
    told := fun parts hl =>
      ⟨Engine.comesTo_composed (RenderCommand.hostRequest hcwd he) hl (Engine.settled_new e _)
        (Engine.answer_world e h.files) (Engine.allowed_new e _ _),
        fun r hr => RenderCommand.told_partials hcwd he hl hr⟩ }

/-! ### A site with two partials -/

/-- A host whose environment names two directories of partials, each with one file. -/
def siteHost : Host where
  files := ⟨.directory
    [("p", .directory [("q.html", .file (Text.encodeUtf8 "x".toList))]),
      ("s", .directory [("b.html", .file (Text.encodeUtf8 "y".toList))])]⟩
  cwd := "/"
  runtime := .closed 10
  home := "/"
  environment := [("TEMPLATE_VIEWS_PARTIALS_DIR", "p:s")]

def siteEngine : Engine where
  config := { partialsDir := .several [.str "p", .str "s"], explicit := [.partialsDir] }
  cwd := "/"
  runtime := .closed 10

def homePage : RenderCommand where
  view := "home"
  views := "views"

/-- Both partials are listed, in order, with the files of their templates. -/
theorem partials_agree_site :
    Path.isAbsolute siteHost.cwd = true ∧ homePage.context = none ∧
      engineOf siteHost homePage.engine = .ok siteEngine ∧
      homePage.PartialsAgree siteHost siteEngine ∧
      ∃ table : Table, homePage.ListingEnds siteHost siteEngine (.table table table) ∧
        (table.rows.map Prod.fst).Pairwise (· < ·) ∧
        ∀ row, row ∈ table.rows ↔ row = ("b", "/s/b.html") ∨ row = ("q", "/p/q.html") := by
  have he : engineOf siteHost homePage.engine = .ok siteEngine := rfl
  have hagree := (partials_agree siteHost homePage rfl rfl).2 siteEngine he
  obtain ⟨r, hr⟩ : ∃ r : Except Fault Product,
      siteEngine.JobEnds siteHost.files (homePage.listing siteEngine) r :=
    hagree.concludes.exists_mayEnd
  have hfound : (Engine.partialsAt? siteEngine (lookupsOf (siteEngine.world siteHost.files 0))
      (siteEngine.partialsBelow (some homePage.views))).map
        (·.map fun f => (f.1, f.2.name?.getD "")) =
        some [("q", "/p/q.html"), ("b", "/s/b.html")] := by
    decide +kernel
  obtain ⟨hs, hat, hnames⟩ := Option.map_eq_some_iff.1 hfound
  have hforecast := Engine.partialsForecast_partialsAt? (Option.isSome_of_eq_some hat)
  rw [hat, Option.getD_some] at hforecast
  cases r with
  | error f =>
    obtain ⟨fs, hfs, -⟩ := (Engine.new_foreseen siteEngine siteHost.files _).2 _ hr
    cases hforecast.symm.trans hfs
  | ok p =>
    have hp : homePage.PartialsOf siteHost siteEngine (.ok p) :=
      ((RenderCommand.discovered rfl he).ends_iff _).2 hr
    have hlisted : homePage.ListingEnds siteHost siteEngine
        (Outcome.reporting siteHost.look (tabulated siteHost.look (.ok p))) := ⟨_, hr, rfl⟩
    have hbare := (Engine.partials_foreseen hr).1
    rw [hforecast] at hbare
    have hsame : partialsTable p.asTemplates = partialsTable hs := by
      refine partialsTable_congr ?_
      rw [← Engine.partialValues_bare, ← Engine.Product.templates.inj (Except.ok.inj hbare)]
    have hrows : ∀ row, row ∈ (partialsTable p.asTemplates).rows ↔
        row = ("b", "/s/b.html") ∨ row = ("q", "/p/q.html") := by
      intro row
      rw [hsame]
      unfold partialsTable
      rw [List.mem_mergeSort, hnames]
      simp [or_comm]
    obtain ⟨hsorted, -, -, hplain⟩ := hagree.rows p _ _ hp hlisted rfl
    have htable := hplain fun row hrow => by
      rcases (hrows row).1 hrow with rfl | rfl <;> decide
    exact ⟨rfl, rfl, he, hagree, _, ⟨_, hr, htable.symm⟩, hsorted, hrows⟩

/-! ### A fault that is not reported -/

/-- A host with a configuration whose options for templates cannot be used. -/
def oddHost : Host where
  files := ⟨.directory
    [("c.json", .file (Text.encodeUtf8
        "\x7b\"compiler_options\": \x7b\"extensions\": 5\x7d\x7d".toList)),
      ("views", .directory
        [("home.html", .file (Text.encodeUtf8 "x".toList)),
          ("partials", .directory [("a.html", .file [])])])]⟩
  cwd := "/"
  runtime := .closed 10
  home := "/"

def oddEngine : Engine where
  config := { compilerOptions := [("extensions", .int 5)], explicit := [.compilerOptions] }
  cwd := "/"
  runtime := .closed 10

def oddPage : RenderCommand where
  view := "home"
  views := "views"
  engine := { config := some "c.json" }

theorem fileEntries_odd : Config.fileEntries oddHost (some "c.json") =
    .ok [(.str "compiler_options", .dict [(.str "extensions", .int 5)])] := by
  have hfound : Config.Found oddHost "c.json" "c.json" := ⟨rfl, rfl, by decide +kernel⟩
  have htext : oddHost.readText "c.json" =
      .ok "\x7b\"compiler_options\": \x7b\"extensions\": 5\x7d\x7d" := by decide +kernel
  have hsuffix : Path.suffix "c.json" = ".json" := by decide +kernel
  have hread : Json.read "\x7b\"compiler_options\": \x7b\"extensions\": 5\x7d\x7d" =
      .ok (.dict [(.str "compiler_options", .dict [(.str "extensions", .int 5)])]) := by cbv
  change Config.entriesOfFile oddHost "c.json" = _
  rw [Config.entriesOfFile_found hfound, htext, hsuffix]
  simp only [Config.parseText, if_pos, hread]
  rfl

/-- The partials of a view cannot be found, and listing them fails, but this is not reported: the
fault is none of the library. -/
theorem odd_options_not_reported :
    let f : Fault := .type (.notIterable "int")
    engineOf oddHost oddPage.engine = .ok oddEngine ∧
      (∀ r, oddPage.PartialsOf oddHost oddEngine r ↔ r = .error f) ∧
      ∀ o, oddPage.ListingEnds oddHost oddEngine o ↔ o = .fault f := by
  intro f
  have he : engineOf oddHost oddPage.engine = .ok oddEngine := by
    unfold engineOf
    dsimp only [oddPage]
    rw [Config.load_eq fileEntries_odd]
    rfl
  have hfaults : (oddEngine.partialsForecast (lookupsOf (oddEngine.world oddHost.files 0))
      (oddEngine.partialsBelow (some oddPage.views))).faults = [f] := by decide +kernel
  have hforeseen := Engine.new_foreseen oddEngine oddHost.files (oddPage.listing oddEngine)
  have hends : ∀ r, oddEngine.JobEnds oddHost.files (oddPage.listing oddEngine) r → r = .error f := by
    intro r hr
    have hadmits := hforeseen.2 r hr
    cases r with
    | ok p =>
      have hforecast : oddEngine.partialsForecast _ _ = .ok p.bare := hadmits
      rw [hforecast] at hfaults
      cases hfaults
    | error g =>
      obtain ⟨fs, hfs, hg⟩ := hadmits
      have hforecast : oddEngine.partialsForecast _ _ = .error fs := hfs
      rw [hforecast] at hfaults
      obtain rfl : fs = [f] := hfaults
      rw [List.mem_singleton.1 hg]
  obtain ⟨r, hr⟩ := hforeseen.1.exists_mayEnd
  obtain rfl := hends r hr
  refine ⟨he, fun r => ?_, fun o => ?_⟩
  · refine ((RenderCommand.discovered rfl he).ends_iff r).trans ⟨hends r, ?_⟩
    rintro rfl
    exact hr
  · constructor
    · rintro ⟨r, hr, rfl⟩
      rw [hends r hr]
      rfl
    · rintro rfl
      exact ⟨_, hr, rfl⟩

end CachedViews.CommandLine
