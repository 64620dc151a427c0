import CachedViews.Proofs.Engine.Composed
import CachedViews.Proofs.Engine.Merged

/-
# The last source wins

The lookups for a list of sources go on at the same time, and end in any order. If all of them
succeed, the partials are what the entries of the sources leave when they are put in one after the
other, in the order of the list (`Engine.last_source_wins`): on an engine that serves other
requests at the same time, through caches that were filled before, and without the caches,
whatever they hold and whatever else is in flight.

Key definitions: `Engine.Undisturbed`, `Engine.Delivers`, `Engine.Aggregates`.
Key theorems: `Engine.upheld_undisturbed`, `Engine.undisturbed_foreseen`, `Engine.last_source_wins`.
-/

namespace CachedViews.Engine

/-- A step of an engine that serves requests while the files stay as they are: a request is
started, a task goes on or its operation ends, or the caches are emptied. -/
inductive Undisturbed (e : Engine) (tree : FileTree) (b : Desk) : Desk → Prop
  | start (job : Job) : Undisturbed e tree b (start job b).2
  | work {b' : Desk} (h : Board.Works e.program (e.CurrentTree tree) b b') : Undisturbed e tree b b'
  | reset : Undisturbed e tree b (reset b)

/-- A job ends well, with these templates under their names. -/
def Delivers (merged : List (String × Value)) (o : Except Fault Product) : Prop :=
  ∃ hs, o = .ok (.templates hs) ∧ partialValues hs = merged

/-- The partials of the sources are these templates, in whatever order their lookups end. -/
structure Aggregates (e : Engine) (sources : Value) (L : Lookups)
    (merged : List (String × Value)) : Prop where
  /-- While any other requests are served, with caches or without. -/
  served : ∀ tree, lookupsOf (e.world tree 0) = L → ∀ b,
    Relation.ReflTransGen (e.Undisturbed tree) {} b → ∀ t cached,
      Board.job? (σ := signature) b t = some (.partials sources cached) →
        Board.Concludes e.program (e.CurrentTree tree) t b ∧
        ∀ o, Board.outcome? (σ := signature) b t = some o → Delivers merged o
  /-- What was cached before, of whatever files, takes the place of what the files say. -/
  cached : ∀ trees d tree, e.Reached trees d → AtRest d → lookupsOf (e.overlay d tree 0) = L →
    Board.Concludes e.program (e.CurrentTree tree) d.tasks.length
        (start (.partials sources true) d).2 ∧
      ∀ o, Board.MayEnd e.program (e.CurrentTree tree) d.tasks.length o
        (start (.partials sources true) d).2 → Delivers merged o
  /-- Without caches it makes no difference what they hold or what else is in flight. -/
  uncached : ∀ d tree, Board.Reaches (σ := signature) e.program {} d →
    lookupsOf (e.world tree 0) = L →
      Board.ConcludesAmid e.program (e.CurrentTree tree) d.tasks.length
        (started (.partials sources false) d) ∧
      ∀ o, e.JobEndsAmid tree d (.partials sources false) o → Delivers merged o

variable {e : Engine} {L : Lookups} {tree : FileTree} {b b' d : Desk} {job : Job}
  {sources : Value} {merged : List (String × Value)} {given : List (Source × List (String × Value))}

/-! ### An engine that serves requests -/

/-- The files are what a new engine looks up. -/
theorem answer_current (e : Engine) (tree : FileTree) (w : World signature)
    (hw : e.CurrentTree tree w) (op : Op) :
    (newRegime (lookupsOf (e.world tree 0))).answer e op (w op) := by
  obtain ⟨n, rfl⟩ := hw
  exact answer_world e tree n op

/-- **Every task is as forecast** while requests are served and the files stay as they are. -/
theorem upheld_undisturbed (h : Relation.ReflTransGen (e.Undisturbed tree) {} b) :
    Board.Upheld ((newRegime (lookupsOf (e.world tree 0))).contract e) {} b := by
  have hnew := settled_new e (lookupsOf (e.world tree 0))
  induction h with
  | refl => exact hnew.upheld
  | tail _ hs ih =>
    cases hs with
    | start job => exact ih.spawn (allowed_new e _ job)
    | work hw => exact ih.works hnew (answer_current e tree) hw
    | reset => exact ((ih.clear CacheName.directory).clear CacheName.file).clear CacheName.template

/-- A request that is served comes to its end, and as forecast. -/
theorem undisturbed_foreseen (h : Relation.ReflTransGen (e.Undisturbed tree) {} b) {t : TaskId}
    (hj : Board.job? (σ := signature) b t = some job) :
    Board.Concludes e.program (e.CurrentTree tree) t b ∧
      ∀ o, Board.outcome? (σ := signature) b t = some o →
        (e.forecast (lookupsOf (e.world tree 0)) job).Admits Product.bare o := by
  have hnew := settled_new e (lookupsOf (e.world tree 0))
  have hb := upheld_undisturbed h
  obtain ⟨task, ht, rfl⟩ := Option.map_eq_some_iff.1 hj
  refine ⟨⟨hb.acc_works hnew (answer_current e tree), fun b' hs hr => ?_⟩, fun o ho => ?_⟩
  · obtain ⟨task', ht', -⟩ := Board.grows_worksTo hs t task ht
    rw [Board.outcome?_eq ht']
    exact (hb.worksTo hnew (answer_current e tree) hs).ended_of_rests hnew (answer_current e tree)
      ⟨_, 0, rfl⟩ hr ht'
  · have hphase := hb.phases t task (Nat.zero_le t) ht
    rw [Board.outcome?_eq ht] at ho
    cases hp : task.phase with
    | ended o' =>
      rw [hp] at ho hphase
      obtain rfl := Option.some.inj ho
      exact hphase
    | _ => simp [hp, Phase.outcome?] at ho

/-! ### What is aggregated -/

/-- A job that is forecast to give templates does so. -/
theorem delivers_of_admits {o : Except Fault Product} {v : Forecast Product}
    (hv : v = .ok (.templates (handled merged))) (h : v.Admits Product.bare o) :
    Delivers merged o := by
  subst hv
  cases o with
  | error f =>
    obtain ⟨fs, hfs, -⟩ := h
    cases hfs
  | ok p =>
    have hbare : Product.templates (handled merged) = p.bare := Except.ok.inj h
    cases p with
    | templates hs =>
      refine ⟨hs, rfl, ?_⟩
      rw [← partialValues_bare, ← Product.templates.inj hbare, partialValues, handled, List.map_map]
      exact List.map_id merged
    | _ => cases hbare

/-- **The last source wins.** If all sources of a list can be looked up, its partials are what their
entries leave: each name once, in the order in which the names are met first, and for each the
template of the last entry that has it. The order in which lookups end has no part in it. -/
theorem last_source_wins
    (hs : (entriesOf sources).mapM Source.ofEntry = .ok (given.map Prod.fst))
    (hg : ∀ g ∈ given, e.SourceGives L g.1 g.2) :
    ∃ merged, LastWins (namedEntries e.config.extname given) merged ∧
      e.Aggregates sources L merged := by
  have hforecast := partialsForecast_of_gives hs hg
  refine ⟨_, lastWins_overlay _, ?_, ?_, ?_⟩
  · rintro tree rfl b hb t cached hj
    obtain ⟨hend, hends⟩ := undisturbed_foreseen hb hj
    exact ⟨hend, fun o ho => delivers_of_admits hforecast (hends o ho)⟩
  · rintro trees d tree hd hrest rfl
    have hsettled := settled_cached hd.recorded hrest tree
    have hallowed : ((e.cachedRegime d tree).contract e).allowed (.partials sources true) :=
      .inl rfl
    obtain ⟨hend, hends⟩ := hsettled.concludes (answers_cached e d tree) ⟨_, 0, rfl⟩ hallowed
    exact ⟨hend, fun o ho => delivers_of_admits hforecast (hends o ho)⟩
  · rintro d tree hd rfl
    have hfree : e.HistoryFree tree d (.partials sources false) := historyFree_of_reaches hd rfl
    exact ⟨hfree.concludes, fun o ho => delivers_of_admits hforecast
      ((new_foreseen e tree _).2 o ((hfree.outcomes o).1 ho))⟩

/-! ### Names that collide -/

/-- A directory with a template below another directory. -/
def nestedTree : FileTree where
  root := .directory
    [("p", .directory [("b", .directory [("c.html", .file (Text.encodeUtf8 "file".toList))])])]

def nestedLookups : Lookups := lookupsOf (framedEngine.world nestedTree 0)

/-- Entries with one name as partials, with and without the extension. -/
def inlineEntries : List (String × Value) :=
  [("c.html", .function "template" (.str "first")), ("c", .function "template" (.str "second")),
    ("x", .function "template" (.str "third"))]

def awaitedEntries : List (String × Value) :=
  [("a/b/x", .function "template" (.str "fourth")), ("y", .function "template" (.str "fifth"))]

/-- A mapping and a directory below different namespaces, and the mapping of a future. -/
def collidingSources : Value :=
  .list
    [.dict [(.str "templates", Value.ofFields inlineEntries), (.str "namespace", .str "a/b")],
    .dict [(.str "dir", .str "/p"), (.str "namespace", .str "a")],
    .dict [(.str "templates", .future (Value.ofFields awaitedEntries))]]

/-- The template of the file in `nestedTree`. -/
def nestedTemplate : Value := (templateAt? framedEngine nestedLookups "/p/b/c.html").getD .null

def collidingEntries : List (Source × List (String × Value)) :=
  [(.templates (Value.ofFields inlineEntries) (some "a/b"), inlineEntries),
    (.directory "/p" (some "a"), [("b/c.html", nestedTemplate)]),
    (.templates (.future (Value.ofFields awaitedEntries)) none, awaitedEntries)]

/-- The file wins over both entries of the first mapping, and the future over the third one; the
names stay where they were met first. -/
theorem last_source_wins_colliding : ∃ merged : List (String × Value),
    framedEngine.Aggregates collidingSources nestedLookups merged ∧
      merged.map Prod.fst = ["a/b/c", "a/b/x", "y"] ∧
      merged.lookup "a/b/c" = some nestedTemplate ∧
      merged.lookup "a/b/x" = some (.function "template" (.str "fourth")) := by
  have hs : (entriesOf collidingSources).mapM Source.ofEntry =
      .ok (collidingEntries.map Prod.fst) := rfl
  have hfile : framedEngine.SourceGives nestedLookups (.directory "/p" (some "a"))
      [("b/c.html", nestedTemplate)] := by
    have hpath : Path.absolute framedEngine.cwd (Path.join "/p" "b/c.html") = "/p/b/c.html" := by
      decide +kernel
    have hgives : framedEngine.Gives nestedLookups
        (Path.absolute framedEngine.cwd (Path.join "/p" "b/c.html")) nestedTemplate := by
      rw [hpath]
      exact gives_templateAt? (by decide +kernel)
    have hnames : nestedLookups.names (Path.absolute framedEngine.cwd "/p") = .ok ["b/c.html"] :=
      eq_ok_of_toOption (by decide +kernel)
    exact .directory hnames (.cons hgives .nil)
  have hg : ∀ g ∈ collidingEntries, framedEngine.SourceGives nestedLookups g.1 g.2 := by
    simp only [collidingEntries, List.forall_mem_cons]
    exact ⟨.mapping (.inl rfl) (named_ofFields _), hfile,
      .mapping (.inr rfl) (named_ofFields _), nofun⟩
  obtain ⟨merged, hlast, hmerged⟩ := last_source_wins hs hg
  refine ⟨merged, hmerged, ?_, ?_, ?_⟩
  · rw [hlast.names]
    decide +kernel
  · rw [hlast.values]
    rfl
  · rw [hlast.values]
    rfl

end CachedViews.Engine
