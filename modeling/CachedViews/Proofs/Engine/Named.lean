import CachedViews.Proofs.Engine.Discovered
import CachedViews.Proofs.Listing.Named
import CachedViews.Proofs.Task.Deeds

/-
# Listed files are compiled under their names

The templates below a directory are those of the files in its listing. The listing is that of the
resolved directory, while the files are asked for behind the directory as it was given. Resolved,
they are the files that the listing is about (`Path.absolute_join`), and no others are opened, on
any way through the work, with caches or without (`Engine.listed_compiled`).

What the jobs do is told by `Engine.deeds`: the templates ask for one job for each listed path,
and each of these leads to the file being opened. What they come to is told by the forecast, and
a directory by itself gives as many partials as there are paths in its listing, as different
paths have different names.

Key definitions: `Engine.EachGives`, `Engine.deeds`, `Engine.Concerned`, `Engine.ListedCompiled`.
Key theorems: `Engine.templatesForecast_iff`, `Engine.partialsForecast_iff`,
`Engine.accounted_deeds`, `Engine.listed_compiled`.
-/

namespace CachedViews.Engine

/-- Each listed file gives a template, which is there under the name that is made of its path. -/
def EachGives (e : Engine) (L : Lookups) (dir : String) (name : String → String)
    (paths : List String) (entries : List (String × Value)) : Prop :=
  List.Forall₂ (fun f entry => entry.1 = name f ∧
    e.Gives L (Path.absolute e.cwd (Path.join dir f)) entry.2) paths entries

variable {e : Engine} {tree : FileTree} {L : Lookups} {dir : String} {cached : Bool}
  {paths : List String} {entries : List (String × Value)} {name : String → String}
  {job : Job} {b : Desk} {l : Listing}

/-! ### What listed files give -/

theorem Forecast.forall_of_all {α β : Type} {vs : β → Forecast α} {bs : List β} {as : List α}
    (h : Forecast.all (bs.map vs) = .ok as) : List.Forall₂ (fun b a => vs b = .ok a) bs as := by
  induction bs generalizing as with
  | nil =>
    obtain rfl : [] = as := Except.ok.inj h
    exact .nil
  | cons b bs ih =>
    rw [List.map_cons] at h
    cases hb : vs b with
    | error fs => simp [hb, Forecast.all] at h
    | ok a =>
      cases hall : Forecast.all (bs.map vs) with
      | error fs => simp [hb, hall, Forecast.all, Except.map] at h
      | ok rest =>
        obtain rfl : a :: rest = as := by simpa [hb, hall, Forecast.all, Except.map] using h
        exact .cons hb (ih hall)

theorem gives_of_compileForecast {file : String} {p : Product}
    (h : e.compileForecast L file = .ok p) : e.Gives L file p.asTemplate.value := by
  unfold compileForecast textForecast at h
  cases htext : L.text file with
  | error f => cases f <;> simp [htext, bind, Except.bind] at h
  | ok text =>
    simp only [htext, bind, Except.bind, Product.asText] at h
    cases hc : e.compiler.compile e.config.compilerOptions file text with
    | error f => cases f <;> simp [hc] at h
    | ok v =>
      rw [hc] at h
      obtain rfl := Except.ok.inj h
      exact ⟨text, htext, hc⟩

theorem eachGives_zip {found : List Value}
    (h : List.Forall₂
      (fun f v => e.Gives L (Path.absolute e.cwd (Path.join dir f)) v) paths found) :
    e.EachGives L dir name paths ((paths.map name).zip found) := by
  induction h with
  | nil => exact .nil
  | cons hv _ ih => exact .cons ⟨rfl, hv⟩ ih

theorem EachGives.found (h : e.EachGives L dir name paths entries) :
    List.Forall₂ (fun f v => e.Gives L (Path.absolute e.cwd (Path.join dir f)) v) paths
      (entries.map Prod.snd) ∧ entries.map Prod.fst = paths.map name := by
  induction h with
  | nil => exact ⟨.nil, rfl⟩
  | cons hv _ ih => exact ⟨.cons hv.2 ih.1, by rw [List.map_cons, List.map_cons, hv.1, ih.2]⟩

theorem handled_injective : Function.Injective handled :=
  List.map_injective_iff.2 fun a b h => by simpa [Prod.ext_iff] using h

section

variable (hn : L.names (Path.absolute e.cwd dir) = .ok paths)

include hn

/-- Where templates are forecast, all listed files give theirs. -/
theorem found_of_templatesForecast {p : Product}
    (h : e.templatesForecast L (.str dir) = .ok p) :
    ∃ found, List.Forall₂
      (fun f v => e.Gives L (Path.absolute e.cwd (Path.join dir f)) v) paths found := by
  have hkey : Forecast.of (e.keyOf (.str dir)) = .ok (Path.absolute e.cwd dir) := rfl
  simp only [templatesForecast, hkey, namesForecast_of_ok hn, bind, Except.bind, Product.asNames,
    Value.text] at h
  cases hall : Forecast.all (paths.map fun f => e.templateForecast L (.str (Path.join dir f))) with
  | error fs =>
    rw [hall] at h
    cases h
  | ok found =>
    exact ⟨found.map fun p => p.asTemplate.value, List.forall₂_map_right_iff.2
      ((Forecast.forall_of_all hall).imp fun f p hp => gives_of_compileForecast hp)⟩

/-- **The templates below a directory** are those of the listed files, under their paths. -/
theorem templatesForecast_iff :
    e.templatesForecast L (.str dir) = .ok (.templates (handled entries)) ↔
      e.EachGives L dir id paths entries := by
  constructor
  · intro h
    obtain ⟨found, hfound⟩ := found_of_templatesForecast hn h
    have hsame := h.symm.trans (templatesForecast_of_gives hn hfound)
    obtain rfl := handled_injective (Product.templates.inj (Except.ok.inj hsame))
    have heach : e.EachGives L dir id paths ((paths.map id).zip found) := eachGives_zip hfound
    rwa [List.map_id] at heach
  · intro h
    obtain ⟨hfound, hnames⟩ := h.found
    have hzip : entries = paths.zip (entries.map Prod.snd) := by
      rw [List.map_id] at hnames
      rw [← hnames, List.zip_map', List.map_id']
    rw [templatesForecast_of_gives hn hfound, ← hzip]

variable {namesp : Option String} {sources : Value}
  (hs : (entriesOf sources).mapM Source.ofEntry = .ok [.directory dir namesp])

include hs

theorem partialsForecast_of_found
    (hd : (paths.map fun f => partialName f namesp e.config.extname).Nodup) {found : List Value}
    (hfound : List.Forall₂
      (fun f v => e.Gives L (Path.absolute e.cwd (Path.join dir f)) v) paths found) :
    e.partialsForecast L sources = .ok (.templates (handled
      ((paths.map fun f => partialName f namesp e.config.extname).zip found))) := by
  have hgiven : ∀ g ∈ [(Source.directory dir namesp, paths.zip found)],
      e.SourceGives L g.1 g.2 := by
    simpa using SourceGives.directory hn hfound
  have hforecast := partialsForecast_of_gives hs hgiven
  have hentries : namedEntries e.config.extname [(.directory dir namesp, paths.zip found)] =
      (paths.map fun f => partialName f namesp e.config.extname).zip found := by
    simp [namedEntries, Source.namesp, List.zip_map_left]
  have hlen := hfound.length_eq
  rw [hforecast, hentries, overlay_of_nodup (by simpa [List.map_fst_zip, hlen] using hd),
    List.nil_append]

theorem found_of_partialsForecast {p : Product} (h : e.partialsForecast L sources = .ok p) :
    ∃ found, List.Forall₂
      (fun f v => e.Gives L (Path.absolute e.cwd (Path.join dir f)) v) paths found := by
  have hof : Forecast.of ((entriesOf sources).mapM Source.ofEntry) =
      .ok [.directory dir namesp] := Forecast.of_eq_ok.2 hs
  simp only [partialsForecast, hof, bind, Except.bind] at h
  cases hsource : e.sourceForecast L (.directory dir namesp) with
  | error fs => simp [hsource, Forecast.all] at h
  | ok p => exact found_of_templatesForecast hn hsource

/-- **The partials of one directory** are those of the listed files, under their names, if these
are different. -/
theorem partialsForecast_iff
    (hd : (paths.map fun f => partialName f namesp e.config.extname).Nodup) :
    e.partialsForecast L sources = .ok (.templates (handled entries)) ↔
      e.EachGives L dir (fun f => partialName f namesp e.config.extname) paths entries := by
  constructor
  · intro h
    obtain ⟨found, hfound⟩ := found_of_partialsForecast hn hs h
    have hsame := h.symm.trans (partialsForecast_of_found hn hs hd hfound)
    obtain rfl := handled_injective (Product.templates.inj (Except.ok.inj hsame))
    exact eachGives_zip hfound
  · intro h
    obtain ⟨hfound, hnames⟩ := h.found
    have hzip : entries = (entries.map Prod.fst).zip (entries.map Prod.snd) := by
      rw [List.zip_map', List.map_id']
    rw [partialsForecast_of_found hn hs hd hfound, ← hnames, ← hzip]

end

/-- What a job delivers is what is forecast. -/
theorem delivers_iff {o : Except Fault Product} {v : Forecast Product}
    (h : v.Admits Product.bare o) :
    Delivers entries o ↔ v = .ok (.templates (handled entries)) := by
  constructor
  · rintro ⟨hs, rfl, rfl⟩
    have hv : v = .ok (Product.bare (.templates hs)) := h
    rw [hv, handled, partialValues, List.map_map]
    rfl
  · exact fun hv => delivers_of_admits hv h

/-! ### What the jobs do -/

/-- The deed of a program that looks a job up, or does it by itself. -/
def lookupDeed (cached : Bool) (job : Job) (op : Op) : Deed signature :=
  if cached then .calls job else .begins op

theorem calls_of_lookupDeed {j : Job} {op : Op} (h : .calls j = lookupDeed cached job op) :
    cached = true ∧ j = job := by
  cases cached with
  | true => exact ⟨rfl, Deed.calls.inj h⟩
  | false => cases h

theorem begins_of_lookupDeed {op op' : Op} (h : .begins op = lookupDeed cached job op') :
    cached = false ∧ op = op' := by
  cases cached with
  | true => cases h
  | false => exact ⟨rfl, Deed.begins.inj h⟩

/-- What the jobs do that templates below a directory are made by, if `paths` are listed there. -/
def deeds (e : Engine) (paths : List String) : Job → List (Deed signature)
  | .walk dir => [.begins (.walk dir)]
  | .open file => [.begins (.open file)]
  | .compile file cached => [lookupDeed cached (.open file) (.open file)]
  | .template file cached =>
    match e.keyOf file with
    | .ok key => [lookupDeed cached (.compile key true) (.open key)]
    | .error _ => []
  | .templates dir cached =>
    match e.keyOf dir with
    | .ok key => lookupDeed cached (.walk key) (.walk key) ::
        (paths.map fun f => Job.template (.str (Path.join dir.text f)) cached).map .calls
    | .error _ => []
  | _ => []

/-- The jobs that templates below the directory are made by. -/
inductive Concerned (e : Engine) (dir : String) (paths : List String) : Job → Prop
  | templates (cached : Bool) : Concerned e dir paths (.templates (.str dir) cached)
  | walk : Concerned e dir paths (.walk (Path.absolute e.cwd dir))
  | template {f : String} (h : f ∈ paths) (cached : Bool) :
    Concerned e dir paths (.template (.str (Path.join dir f)) cached)
  | compile {f : String} (h : f ∈ paths) (cached : Bool) :
    Concerned e dir paths (.compile (Path.absolute e.cwd (Path.join dir f)) cached)
  | open {f : String} (h : f ∈ paths) :
    Concerned e dir paths (.open (Path.absolute e.cwd (Path.join dir f)))

section

variable {α β : Type} {ds : List (Deed signature)}

/-- Under lookups that are those of new engines, a program does these deeds. -/
abbrev DoesOn (e : Engine) (L : Lookups) (p : Work α) (ds : List (Deed signature)) : Prop :=
  Program.Does ((newRegime L).contract e) p ds

theorem does_noteAll (ns : List Note) {f : Unit → Work β} (hf : e.DoesOn L (f ()) ds) :
    e.DoesOn L (noteAll ns >>= f) ds := by
  induction ns with
  | nil => exact hf
  | cons m ns ih => exact ih

/-- What comes behind the deeds of a program may do nothing more. -/
theorem does_bind_nothing {p : Work α} {f : α → Work β} (hp : e.DoesOn L p ds)
    (hf : ∀ a, e.DoesOn L (f a) []) : e.DoesOn L (p >>= f) ds := by
  rw [← List.append_nil ds]
  exact Program.Does.bind hp (Program.ensures_of_forall (allowed_new e L)
    (fun o => ⟨fun a _ => hf a, fun _ _ => rfl⟩) p)

theorem does_walking (dir : String) : e.DoesOn L (walking dir) [.begins (.walk dir)] := by
  refine ⟨[], rfl, ?_⟩
  rintro (f | l) -
  · rfl
  · exact does_noteAll _ rfl

theorem does_opening (file : String) : e.DoesOn L (opening file) [.begins (.open file)] := by
  refine ⟨[], rfl, ?_⟩
  rintro ((f | _) | text) - <;> rfl

theorem does_cachedJob (c : CacheName) (k : String) (job : Job) :
    e.DoesOn L (cachedJob c k job) [.calls job] :=
  ⟨[], rfl, fun _ _ => rfl, fun _ _ => rfl⟩

theorem does_listing (dir : String) (cached : Bool) :
    e.DoesOn L (listing dir cached) [lookupDeed cached (.walk dir) (.walk dir)] := by
  cases cached with
  | true => exact does_cachedJob _ _ _
  | false => exact does_walking dir

theorem does_reading (file : String) (cached : Bool) :
    e.DoesOn L (reading file cached) [lookupDeed cached (.open file) (.open file)] := by
  cases cached with
  | true => exact does_cachedJob _ _ _
  | false => exact does_opening file

theorem does_compiling (file : String) (cached : Bool) :
    e.DoesOn L (compiling file cached) [lookupDeed cached (.open file) (.open file)] := by
  refine does_bind_nothing (does_reading file cached) fun text => ?_
  rintro (f | made) -
  · cases f <;> rfl
  · rfl

theorem does_template (file : String) (cached : Bool) : e.DoesOn L (template file cached)
    [lookupDeed cached (.compile file true) (.open file)] := by
  cases cached with
  | true => exact does_cachedJob _ _ _
  | false => exact does_compiling file false

variable (hn : L.names (Path.absolute e.cwd dir) = .ok paths)

include hn

/-- All listed files are asked for. -/
theorem does_templatesBelow (cached : Bool) : e.DoesOn L (e.templatesBelow (.str dir) cached)
    (e.deeds paths (.templates (.str dir) cached)) := by
  have hlisting : Expects e (newRegime L) (listing (Path.absolute e.cwd dir) cached)
      (namesForecast L (Path.absolute e.cwd dir)) Product.bare :=
    expects_listing (.inr fun _ _ h => h)
  refine Program.Does.bind (does_listing _ cached) (hlisting.mono fun o ho => ⟨?_, ?_⟩)
  · rintro names rfl
    have hnames : namesForecast L (Path.absolute e.cwd dir) = .ok names.bare := ho
    rw [namesForecast_of_ok hn] at hnames
    have hpaths : paths = names.asNames := by
      rw [← Product.bare_asNames, ← Except.ok.inj hnames]
      rfl
    rw [hpaths]
    exact ⟨[], (List.append_nil _).symm, fun rs _ => rfl, fun _ _ _ _ => rfl⟩
  · rintro f rfl
    obtain ⟨fs, hfs, -⟩ := ho
    cases (namesForecast_of_ok hn).symm.trans hfs

/-- **The jobs do what is told by the deeds.** -/
theorem accounted_deeds :
    Board.Accounted ((newRegime L).contract e) (e.deeds paths) (e.Concerned dir paths) where
  does job hj := by
    cases hj with
    | templates cached => exact does_templatesBelow hn cached
    | walk => exact does_walking _
    | template h cached => exact does_template _ cached
    | compile h cached => exact does_compiling _ cached
    | «open» h => exact does_opening _
  calls job hj j hc := by
    cases hj with
    | templates cached =>
      rcases List.mem_cons.1 hc with hc | hc
      · obtain ⟨-, rfl⟩ := calls_of_lookupDeed hc
        exact .walk
      · obtain ⟨job, hjob, hj⟩ := List.mem_map.1 hc
        obtain ⟨f, hf, rfl⟩ := List.mem_map.1 hjob
        obtain rfl := Deed.calls.inj hj
        exact .template hf cached
    | walk => cases List.mem_singleton.1 hc
    | template h cached =>
      obtain ⟨-, rfl⟩ := calls_of_lookupDeed (List.mem_singleton.1 hc)
      exact .compile h true
    | compile h cached =>
      obtain ⟨-, rfl⟩ := calls_of_lookupDeed (List.mem_singleton.1 hc)
      exact .open h
    | «open» h => cases List.mem_singleton.1 hc

omit hn in
/-- What the jobs begin is the walk of the directory and the opening of listed files. -/
theorem Concerned.begins (h : e.Concerned dir paths job) {op : Op}
    (hop : .begins op ∈ e.deeds paths job) : op = .walk (Path.absolute e.cwd dir) ∨
      ∃ f ∈ paths, op = .open (Path.absolute e.cwd (Path.join dir f)) := by
  cases h with
  | templates cached =>
    rcases List.mem_cons.1 hop with hop | hop
    · exact .inl (begins_of_lookupDeed hop).2
    · obtain ⟨f, -, hf⟩ := List.mem_map.1 hop
      cases hf
  | walk => exact .inl (Deed.begins.inj (List.mem_singleton.1 hop))
  | template h cached => exact .inr ⟨_, h, (begins_of_lookupDeed (List.mem_singleton.1 hop)).2⟩
  | compile h cached => exact .inr ⟨_, h, (begins_of_lookupDeed (List.mem_singleton.1 hop)).2⟩
  | «open» h => exact .inr ⟨_, h, Deed.begins.inj (List.mem_singleton.1 hop)⟩

end

/-! ### What is opened -/

section

variable (hn : (lookupsOf (e.world tree 0)).names (Path.absolute e.cwd dir) = .ok paths)
  (hb : e.LeadsTo tree (.templates (.str dir) cached) b)

include hn hb

/-- All tasks are for the templates and do as they are said to. -/
theorem doing_templates : Board.Doing ((newRegime (lookupsOf (e.world tree 0))).contract e)
    (e.deeds paths) (e.Concerned dir paths) b := by
  have hlenient : ¬((newRegime (lookupsOf (e.world tree 0))).contract e).Lenient := by
    intro h
    obtain ⟨fs, hfs, -⟩ := h (.walk (Path.absolute e.cwd dir))
    cases (namesForecast_of_ok hn).symm.trans hfs
  exact Board.doing_worksTo (accounted_deeds hn) (.templates cached) (allowed_new e _) hlenient
    (answer_current e tree) hb

theorem begun_listed {t : TaskId} {op : Op} (h : .began t op ∈ b.journal) :
    op = .walk (Path.absolute e.cwd dir) ∨
      ∃ f ∈ paths, op = .open (Path.absolute e.cwd (Path.join dir f)) := by
  have hdoing := doing_templates hn hb
  have hact := Board.began_mem_account.2 h
  cases ht : b.tasks[t]? with
  | none =>
    rw [hdoing.unbegun t (List.getElem?_eq_none_iff.1 ht)] at hact
    cases hact
  | some x => exact (hdoing.jobs t x ht).begins (hdoing.begun t x ht op hact)

/-- When all is done, each listed file was opened. -/
theorem opened_listed (hdone : e.AllDone tree b) {f : String} (hf : f ∈ paths) :
    ∃ t, .began t (.open (Path.absolute e.cwd (Path.join dir f))) ∈ b.journal := by
  have hdoing := doing_templates hn hb
  have hserved : Relation.ReflTransGen (e.Undisturbed tree) {} b :=
    .trans (.single (.start _)) (hb.lift id fun _ _ hs => .work hs)
  have hdid : ∀ (t : Nat) (job : Job), Board.job? (σ := signature) b t = some job →
      ∀ deed ∈ e.deeds paths job, Board.Did (σ := signature) b t deed := by
    intro t job hj
    obtain ⟨x, hx, rfl⟩ := Option.map_eq_some_iff.1 hj
    refine hdoing.did hx ?_
    rw [← Board.outcome?_eq hx]
    exact (undisturbed_foreseen hserved hj).1.2 b .refl hdone
  have hroot : Board.job? (σ := signature) b 0 = some (.templates (.str dir) cached) :=
    (Board.grows_worksTo hb).job? rfl
  obtain ⟨t, ht⟩ : ∃ t, Board.job? (σ := signature) b t =
      some (.template (.str (Path.join dir f)) cached) :=
    hdid 0 _ hroot _
      (List.mem_cons_of_mem _ (List.mem_map_of_mem (List.mem_map_of_mem hf)))
  have htemplate := hdid t _ ht _ List.mem_cons_self
  cases cached with
  | false => exact ⟨t, Board.began_mem_account.1 htemplate⟩
  | true =>
    obtain ⟨s, hs⟩ := htemplate
    obtain ⟨u, hu⟩ := hdid s _ hs _ List.mem_cons_self
    exact ⟨u, Board.began_mem_account.1 (hdid u _ hu _ List.mem_cons_self)⟩

end

/-! ### The templates below a directory -/

/-- What asking for the templates below a directory comes to, if `l` is its listing. -/
structure ListedCompiled (e : Engine) (tree : FileTree) (dir : String) (l : Listing) : Prop where
  /-- A listed path behind the directory resolves to the path behind the resolved directory, and
  there is a file. -/
  resolved : ∀ f ∈ l.paths,
    Path.absolute e.cwd (Path.join dir f) = Path.join (Path.absolute e.cwd dir) f ∧
      tree.isFile e.cwd (Path.absolute e.cwd (Path.join dir f)) = true
  /-- The directory is walked and listed files are opened, and nothing else is done, -/
  begun : ∀ cached b, e.LeadsTo tree (.templates (.str dir) cached) b → ∀ t op,
    .began t op ∈ b.journal → op = .walk (Path.absolute e.cwd dir) ∨
      ∃ f ∈ l.paths, op = .open (Path.absolute e.cwd (Path.join dir f))
  /-- and in the end all listed files were opened. -/
  opened : ∀ cached b, e.LeadsTo tree (.templates (.str dir) cached) b → e.AllDone tree b →
    ∀ f ∈ l.paths, ∃ t, .began t (.open (Path.absolute e.cwd (Path.join dir f))) ∈ b.journal
  /-- The templates are those of the listed files, under their paths. -/
  templates : ∀ cached,
    Board.Concludes e.program (e.CurrentTree tree) 0 (start (.templates (.str dir) cached) {}).2 ∧
    ∀ o, e.JobEnds tree (.templates (.str dir) cached) o → ∀ entries,
      Delivers entries o ↔ e.EachGives (lookupsOf (e.world tree 0)) dir id l.paths entries
  /-- Each listed path has a name of its own as a partial, which tells the path. -/
  named : ∀ namesp, (l.paths.map fun f => partialName f namesp e.config.extname).Nodup ∧
    ∀ f ∈ l.paths, partialName f namesp e.config.extname ≠ "" ∧
      partialName f namesp e.config.extname ++ e.config.extname = namespaced namesp f
  /-- The partials of the directory by itself are those of the listed files, under their names. -/
  partials : ∀ namesp sources cached,
    (entriesOf sources).mapM Source.ofEntry = .ok [.directory dir namesp] →
    Board.Concludes e.program (e.CurrentTree tree) 0 (start (.partials sources cached) {}).2 ∧
    ∀ o, e.JobEnds tree (.partials sources cached) o → ∀ entries,
      Delivers entries o ↔ e.EachGives (lookupsOf (e.world tree 0)) dir
        (fun f => partialName f namesp e.config.extname) l.paths entries

theorem names_of_walk {key : String} (h : walk tree e.cwd key e.config.extname = .ok l) :
    (lookupsOf (e.world tree 0)).names key = .ok l.paths := by
  have hnames : (lookupsOf (e.world tree 0)).names key =
      (walk tree e.cwd key e.config.extname).map Listing.paths := rfl
  rw [hnames, h, Except.map]

/-- **Every listed file is the file that is compiled, under its own name**, however the directory
is spelled. -/
theorem listed_compiled (hwf : tree.WellFormed) (hext : e.config.extname.toList.head? = some '.')
    (h : walk tree e.cwd (Path.absolute e.cwd dir) e.config.extname = .ok l) :
    e.ListedCompiled tree dir l := by
  obtain ⟨hnodup, hlisted⟩ := listed_of_walk hwf hext h
  have hne : e.config.extname ≠ "" := fun hnil => by simp [hnil] at hext
  have hnames := names_of_walk h
  have hdistinct := nodup_partialNames hne hnodup fun f hf => (hlisted f hf).1
  refine ⟨fun f hf => ?_, fun cached b hb t op hop => begun_listed hnames hb hop,
    fun cached b hb hdone f hf => opened_listed hnames hb hdone hf, fun cached => ?_,
    fun namesp => ⟨hdistinct namesp, fun f hf => ?_⟩, fun namesp sources cached hs => ?_⟩
  · obtain ⟨hpath, hfile⟩ := hlisted f hf
    have hresolved := Path.absolute_join hpath.plain e.cwd dir
    exact ⟨hresolved, hresolved ▸ hfile⟩
  · obtain ⟨hend, hends⟩ := new_foreseen e tree (.templates (.str dir) cached)
    exact ⟨hend, fun o ho entries =>
      (delivers_iff (hends o ho)).trans (templatesForecast_iff hnames)⟩
  · exact ⟨partialName_ne hne (hlisted f hf).1, namespaced_partialName hne (hlisted f hf).1⟩
  · obtain ⟨hend, hends⟩ := new_foreseen e tree (.partials sources cached)
    exact ⟨hend, fun o ho entries =>
      (delivers_iff (hends o ho)).trans (partialsForecast_iff hnames hs (hdistinct namesp))⟩

/-- A template with a dot in its name, in a directory of its own, and a hidden one. -/
def shelvedTree : FileTree where
  root := .directory [("srv", .directory [("p", .directory
    [("b", .directory [("c.d.html", .file [])]), (".h.html", .file [])])])]

def shelvedEngine : Engine where
  config := { extname := ".html" }
  cwd := "/srv"
  runtime := .closed 10

/-- Spelled with a detour, the directory leads to the same files. -/
theorem listed_compiled_shelved :
    shelvedTree.WellFormed ∧ shelvedEngine.config.extname.toList.head? = some '.' ∧
      walk shelvedTree shelvedEngine.cwd (Path.absolute shelvedEngine.cwd "x/..//p/.") ".html" =
        .ok ⟨["b/c.d.html"], []⟩ ∧
      partialName "b/c.d.html" (some "n") ".html" = "n/b/c.d" ∧
      ∀ cached b, shelvedEngine.LeadsTo shelvedTree (.templates (.str "x/..//p/.") cached) b →
        shelvedEngine.AllDone shelvedTree b →
          ∃ t, .began t (.open "/srv/p/b/c.d.html") ∈ b.journal := by
  have hwf : shelvedTree.WellFormed := by decide +kernel
  have hext : shelvedEngine.config.extname.toList.head? = some '.' := by decide
  have hwalk : walk shelvedTree shelvedEngine.cwd
      (Path.absolute shelvedEngine.cwd "x/..//p/.") ".html" =
        .ok ⟨["b/c.d.html"], []⟩ :=
    eq_ok_of_toOption (by decide +kernel)
  have hfile : Path.absolute shelvedEngine.cwd (Path.join "x/..//p/." "b/c.d.html") =
      "/srv/p/b/c.d.html" := by decide +kernel
  have hcompiled := listed_compiled hwf hext hwalk
  refine ⟨hwf, hext, hwalk, by decide +kernel, fun cached b hb hdone => ?_⟩
  rw [← hfile]
  exact hcompiled.opened cached b hb hdone "b/c.d.html" (by simp)

end CachedViews.Engine
