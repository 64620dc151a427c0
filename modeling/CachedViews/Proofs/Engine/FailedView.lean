import CachedViews.Proofs.Engine.Blame
import CachedViews.Proofs.Engine.Rendered
import CachedViews.Proofs.Engine.Retries
import CachedViews.Proofs.Template.Faults

/-
# Views that fail

A view that is rendered through the caches fails because some of its lookups do: its file,
partials, directories or its layout. Others go on when the view has failed already. When all
work has been done, the fault of the view is that of a lookup that it made, and the caches
hold the results of all those that went well (`Engine.failed_view_keeps_successes`). When the
same view is asked for again, what went well is found in the caches. So it comes to the walk
or to the reading again by which it had failed, whatever the files say by then.

Key definitions: `Engine.failedOp?`, `Engine.AskedAgain`, `Engine.LeavesSuccesses`.
Key theorems: `Engine.Rendered.blamed`, `Engine.Rendered.extends_viewKeys`,
`Engine.Rendered.askedAgain`, `Engine.failed_view_keeps_successes`.
-/

namespace CachedViews.Engine

/-- The walk or the reading that a fault tells of. -/
def failedOp? : Fault → Option Op
  | .view (.listing dir _) => some (.walk dir)
  | .view (.reading file _) => some (.open file)
  | _ => none

/-- A view was asked for again on the desk `d'`, and all work has been done on the desk `d''`. -/
structure AskedAgain (e : Engine) (tree' : FileTree) (file options : Value) (f : Fault)
    (d' d'' : Desk) : Prop where
  /-- A walk or a reading by which the view had failed is begun again. -/
  again : ∀ op, failedOp? f = some op →
    ∃ s, d'.tasks.length ≤ s ∧ .began s op ∈ Board.eventsSince (σ := signature) d' d''
  /-- What is walked, opened or compiled had not gone well before. -/
  once : ∀ s op, .began s op ∈ Board.eventsSince (σ := signature) d' d'' ∨
    .asked s op ∈ Board.eventsSince (σ := signature) d' d'' →
      Board.stored? (σ := signature) d' (Op.place op).1 (Op.place op).2 = none
  /-- If nothing is wrong any more, the view is rendered. -/
  rendered : ∀ x, e.viewForecast (lookupsOf (e.overlay d' tree' 0)) file options = .ok x →
    Board.outcome? (σ := signature) d'' d'.tasks.length = some (.ok (.value x))

/-- A view was started on the desk `d` and has failed with the fault `f`, and all work has
been done on the desk `d'`. -/
structure LeavesSuccesses (e : Engine) (file options : Value) (d d' : Desk) (f : Fault) :
    Prop where
  failed : Board.outcome? (σ := signature) d' d.tasks.length = some (.error f)
  delivered : deliver (outcome d' d.tasks.length) = .failed f
  /-- The fault is that of a lookup. -/
  blamed : ∃ s c k, d.tasks.length ≤ s ∧ Board.place? (σ := signature) d' s = some (c, k) ∧
    Board.outcome? (σ := signature) d' s = some (.error f)
  /-- The caches hold what they held, and the lookups since that went well. -/
  stored_iff : ∀ c k s, Board.stored? (σ := signature) d' c k = some s ↔
    Board.stored? (σ := signature) d c k = some s ∨
      d.tasks.length ≤ s ∧ Board.place? (σ := signature) d' s = some (c, k) ∧
        ∃ r, Board.outcome? (σ := signature) d' s = some (.ok r)
  /-- Of a template that could not be made, the text is kept if it could be read. -/
  text_kept : ∀ name s g, d.tasks.length ≤ s →
    Board.place? (σ := signature) d' s = some (.template, name) →
    Board.outcome? (σ := signature) d' s = some (.error g) →
    Board.stored? (σ := signature) d' .template name = none ∧
      ((∃ u, d.tasks.length ≤ u ∧ Board.place? (σ := signature) d' u = some (.file, name) ∧
          Board.outcome? (σ := signature) d' u = some (.error g)) ∨
        ∃ u text, Board.stored? (σ := signature) d' .file name = some u ∧
          Board.outcome? (σ := signature) d' u = some (.ok text) ∧
          e.textCompiled name text = .error [g])
  /-- The same view may be asked for again, with the files as in any tree. -/
  again : ∀ tree', e.ViewConcludes (e.world tree') d' file options ∧
    ∀ d'', e.Rendered tree' file options d' d'' → e.AskedAgain tree' file options f d' d''

variable {e : Engine} {trees : FileTree → Prop} {tree tree' : FileTree} {d d' d'' b : Desk}
  {file options : Value} {c : CacheName} {k : String} {s u : Nat} {f g : Fault} {fs : List Fault}
  {op : Op} {L : Lookups} {R : Regime}

/-! ### Faults of lookups -/

/-- Compiling a text does not fail as a walk or a reading does. -/
theorem ne_failedOp_of_text {text : Product} (ht : textForecast L k = .ok text)
    (h : e.FailsWith L f .template k) : failedOp? f = none := by
  obtain ⟨fs, hfs, hf⟩ := h
  change e.compileForecast L k = _ at hfs
  unfold compileForecast at hfs
  rw [ht] at hfs
  simp only [bind, Except.bind] at hfs
  split at hfs
  · cases hfs
  · cases hfs
    obtain rfl := List.mem_singleton.1 hf
    rfl
  · rename_i hc
    cases hfs
    obtain rfl := List.mem_singleton.1 hf
    unfold failedOp?
    split
    · exact absurd hc (tellsNoView_compile _ _ _ _ _)
    · exact absurd hc (tellsNoView_compile _ _ _ _ _)
    · rfl

/-- Where a key fails as a walk or a reading does, it is that of the operation, or it leads
there. -/
theorem FailsWith.operation (h : e.FailsWith L f c k) (hop : failedOp? f = some op) :
    e.FailsWith L f (Op.place op).1 (Op.place op).2 ∧
      ∀ R, e.Wanted R (fun c k => Op.place op = (c, k)) c k := by
  have htext : ∀ {fs}, textForecast L k = .error fs → f ∈ fs → Op.place op = (.file, k) := by
    intro fs hfs hf
    unfold textForecast at hfs
    split at hfs <;> cases hfs <;> obtain rfl := List.mem_singleton.1 hf <;> cases hop
    rfl
  obtain ⟨fs, hfs, hf⟩ := id h
  cases c with
  | directory =>
    have hplace : Op.place op = (.directory, k) := by
      change namesForecast L k = _ at hfs
      unfold namesForecast at hfs
      split at hfs <;> cases hfs
      obtain rfl := List.mem_singleton.1 hf
      cases hop
      rfl
    rw [hplace]
    exact ⟨h, fun R => .here rfl⟩
  | file =>
    rw [htext hfs hf]
    exact ⟨h, fun R => .here rfl⟩
  | template =>
    cases ht : textForecast L k with
    | ok text =>
      rw [ne_failedOp_of_text ht h] at hop
      cases hop
    | error gs =>
      -- to compile a file it has to be read
      have hgs : e.forecast L (jobAt .template k) = .error gs := by
        change e.compileForecast L k = _
        rw [compileForecast, ht]
        rfl
      obtain rfl : fs = gs := Except.error.inj (hfs.symm.trans hgs)
      rw [htext ht hf]
      exact ⟨⟨fs, ht, hf⟩, fun R => .inside (.here rfl)⟩

/-! ### The view that failed -/

/-- A program that ends without waiting looks nothing up. -/
theorem not_seeks_ends {want : Except Fault Product → Prop} {p : Work Product}
    {K : CacheName → String → Prop} (hp : e.EndsIn (· = tree) want p) :
    ¬Program.Seeks (σ := signature) ((e.cachedRegime d tree).contract e) K p := by
  intro h
  induction p with
  | done r => cases h
  | note n next ih =>
    cases h with
    | note h => exact ih hp h
  | ask op next ih =>
    cases h with
    | ask h =>
      have ha := answer_cached e d tree 0 op
      exact ih _ (hp _ ⟨tree, 0, rfl, rfl⟩) (h _ ha)
  | _ => exact hp

/-- What the task of a key that is stored would seek is stored. -/
theorem served_of_stored (hd : e.Sane d) (hr : AtRest d) {K : CacheName → String → Prop}
    (hs : Board.stored? (σ := signature) d c k ≠ none)
    (h : Program.Seeks (σ := signature) ((e.cachedRegime d tree).contract e) K
      (e.program (jobAt c k))) : Board.Served (σ := signature) K d d := by
  have hopens : ∀ name, ¬Program.Seeks (σ := signature) ((e.cachedRegime d tree).contract e) K
      (e.program (.open name)) := by
    intro name h
    rw [program_open] at h
    cases h with
    | perform h =>
      have hseeks := h _ (answer_cached e d tree 0 (.open name))
      exact not_seeks_ends (ends_afterOpening _ ⟨tree, 0, rfl, rfl⟩) hseeks
  cases c with
  | directory =>
    rw [show jobAt .directory k = .walk k from rfl, program_walk] at h
    cases h with
    | perform h =>
      have hseeks := h _ (answer_cached e d tree 0 (.walk k))
      exact absurd hseeks (not_seeks_ends (ends_afterWalking _ ⟨tree, 0, rfl, rfl⟩))
  | file => exact absurd h (hopens k)
  | template =>
    -- the text that the template was made of is stored
    obtain ⟨t, ht⟩ := Option.ne_none_iff_exists'.1 hs
    obtain ⟨s, text, made, hfile, ho, -⟩ := hd.recorded.template_made hr ht
    rw [show jobAt .template k = .compile k true from rfl, program_compile] at h
    cases h with
    | here hK => exact ⟨.file, k, hK, .inl (by simp [hfile])⟩
    | inside h => exact absurd h (hopens k)
    | after hf h =>
      obtain ⟨r, -, hspec⟩ := (settled_cached hd.recorded hr tree).stored .file k s hfile
      exact absurd (h r hspec) (not_seeks_ends (ends_compileText r))

section

variable (h : e.Rendered tree file options d d') (hd : e.Sane d) (hr : AtRest d)
  (hc : Caches options)

include h hd hr hc

theorem Rendered.sane : e.Sane d' := (h.rendering hd hr hc).sane

omit h in
/-- What a view is bound to look up is stored when it was started, or is looked up. -/
theorem Rendered.served {K : CacheName → String → Prop}
    (h : e.Rendered tree file options d d')
    (hs : Program.Seeks (σ := signature) ((e.cachedRegime d tree).contract e) K
      (e.program (.view file options))) : Board.Served (σ := signature) K d d' := by
  have hlenient : ¬((e.cachedRegime d tree).contract e).Lenient := by
    intro hl
    obtain ⟨_, hfs, -⟩ := hl (.source (.templates .null "") true)
    cases hfs
  have hallowed : ((e.cachedRegime d tree).contract e).allowed (.view file options) :=
    allowed_cached e d tree file hc
  exact (settled_cached hd.recorded hr tree).served hlenient
    (fun c k hst => served_of_stored hd hr hst) (answers_cached e d tree) hallowed hs h.works
    fun u x _ hx => h.atRest u x hx

/-- The outcome of the view is as forecast. -/
theorem Rendered.endsAs : ∃ o, Board.outcome? (σ := signature) d' d.tasks.length = some o ∧
    EndsAs (e.viewForecast (lookupsOf (e.overlay d tree 0)) file options) o := by
  have hgrows := Board.grows_worksTo h.works
  have htask : (start (.view file options) d).2.tasks[d.tasks.length]? =
      some { job := .view file options } := List.getElem?_concat_length
  obtain ⟨task, ht, -⟩ := hgrows d.tasks.length _ htask
  obtain ⟨o, ho⟩ := Option.ne_none_iff_exists'.1 (h.atRest _ task ht)
  have hout := (Board.outcome?_eq ht).trans ho
  have hends := (view_foreseen (settled_cached hd.recorded hr tree) (answer_cached e d tree)
    (allowed_cached e d tree file hc)).2
  exact ⟨o, hout, hends o ⟨d', h.works, hout⟩⟩

/-- A key that the view is bound to look up is stored if it goes well. -/
theorem Rendered.stored_of_seeks {r : Product}
    (hs : Program.Seeks (σ := signature) ((e.cachedRegime d tree).contract e)
      (fun c' k' => (c, k) = (c', k')) (e.program (.view file options)))
    (hok : e.forecast (lookupsOf (e.overlay d tree 0)) (jobAt c k) = .ok r) :
    ∃ s, Board.stored? (σ := signature) d' c k = some s := by
  obtain ⟨c', k', hK, hs | ⟨s, hle, hp⟩⟩ := Rendered.served hd hr hc h hs
  · cases hK
    obtain ⟨s, hs⟩ := Option.ne_none_iff_exists'.1 hs
    exact ⟨s, (h.stored_iff hd hr hc).2 (.inl hs)⟩
  · cases hK
    obtain ⟨o, ho, hadmits⟩ := h.ended hd hr hc hle hp
    cases o with
    | ok r => exact ⟨s, (h.stored_iff hd hr hc).2 (.inr ⟨hle, hp, r, ho⟩)⟩
    | error f =>
      obtain ⟨fs, hfs, -⟩ := hadmits
      exact absurd (hfs.symm.trans hok) nofun

/-- What went well for the view itself goes as well later, whatever the files say by then. -/
theorem Rendered.extends_viewKeys
    (hk : (c, k) ∈ e.viewKeys (lookupsOf (e.overlay d tree 0)) file options) :
    e.Extends (e.cachedRegime d' tree') (lookupsOf (e.overlay d tree 0)) c k := by
  intro r hok
  obtain ⟨plan, hp, hk⟩ : ∃ plan, e.planView file options = .ok plan ∧
      (c, k) ∈ e.loadKeys (lookupsOf (e.overlay d tree 0)) file plan.options := by
    unfold viewKeys at hk
    split at hk
    · exact ⟨_, ‹_›, hk⟩
    · cases hk
  have hw : e.Wanted (e.cachedRegime d tree) (fun c' k' => (c, k) = (c', k')) c k := .here rfl
  have hseeks := seeks_view hc hw (.inl rfl) hp hk fun _ _ _ _ h => h
  obtain ⟨s, hs⟩ := h.stored_of_seeks hd hr hc hseeks hok
  obtain ⟨r', ho, hok'⟩ := h.forecast_of_stored hd hr hc hs
  obtain ⟨r'', ho', hlater⟩ := (settled_cached (h.rendering hd hr hc).sane.recorded h.atRest
    tree').stored c k s hs
  obtain rfl := Except.ok.inj (Option.some.inj (ho.symm.trans ho'))
  obtain rfl := Except.ok.inj (hok.symm.trans hok')
  exact hlater

/-- **A view that fails because lookups fail** has the fault of a lookup that was made for it,
and is bound to make this lookup again. -/
theorem Rendered.blamed
    (hf : e.LookupsFail (lookupsOf (e.overlay d tree 0)) file options) :
    ∃ f s c k, Board.outcome? (σ := signature) d' d.tasks.length = some (.error f) ∧
      d.tasks.length ≤ s ∧ Board.place? (σ := signature) d' s = some (c, k) ∧
      Board.outcome? (σ := signature) d' s = some (.error f) ∧
      e.FailsWith (lookupsOf (e.overlay d tree 0)) f c k ∧
      ∀ tree' K, e.Wanted (e.cachedRegime d' tree') K c k →
        Program.Seeks (σ := signature) ((e.cachedRegime d' tree').contract e) K
          (e.program (.view file options)) := by
  obtain ⟨fs, hfs⟩ := hf.exists_error
  obtain ⟨o, hout, hends⟩ := h.endsAs hd hr hc
  cases o with
  | ok p =>
    obtain ⟨x, hx, -⟩ := hends
    exact absurd (hx.symm.trans hfs) nofun
  | error f =>
    obtain ⟨gs, hgs, hmem⟩ := hends
    obtain rfl : fs = gs := Except.error.inj (hfs.symm.trans hgs)
    obtain ⟨c, k, hfail, hseeks⟩ := hf.exists_key hc hfs hmem
    have hthen := hseeks (e.cachedRegime d tree) (fun c' k' => (c, k) = (c', k')) (.here rfl)
      (.inl rfl) fun _ _ _ _ h => h
    obtain ⟨c', k', hK, hs | ⟨s, hle, hp⟩⟩ := Rendered.served hd hr hc h hthen
    · -- what is stored has not failed
      cases hK
      obtain ⟨s, hs⟩ := Option.ne_none_iff_exists'.1 hs
      obtain ⟨r, -, hok⟩ := (settled_cached hd.recorded hr tree).stored c k s hs
      obtain ⟨gs, hgs, -⟩ := hfail
      exact absurd (hgs.symm.trans hok) nofun
    · cases hK
      obtain ⟨o, ho, hadmits⟩ := h.ended hd hr hc hle hp
      refine ⟨f, s, c, k, hout, hle, hp, ho.trans (congrArg some (hfail.eq_error hadmits)), hfail,
        fun tree' K hw => ?_⟩
      exact hseeks _ K hw (.inl rfl) fun c k hk => h.extends_viewKeys hd hr hc hk

/-- Of a template that could not be made, the text is kept if it could be read. -/
theorem Rendered.text_kept {name : String} (hle : d.tasks.length ≤ s)
    (hp : Board.place? (σ := signature) d' s = some (.template, name))
    (ho : Board.outcome? (σ := signature) d' s = some (.error g)) :
    Board.stored? (σ := signature) d' .template name = none ∧
      ((∃ u, d.tasks.length ≤ u ∧ Board.place? (σ := signature) d' u = some (.file, name) ∧
          Board.outcome? (σ := signature) d' u = some (.error g)) ∨
        ∃ u text, Board.stored? (σ := signature) d' .file name = some u ∧
          Board.outcome? (σ := signature) d' u = some (.ok text) ∧
          e.textCompiled name text = .error [g]) := by
  have hren := h.rendering hd hr hc
  refine ⟨?_, ?_⟩
  · cases hs : Board.stored? (σ := signature) d' .template name with
    | none => rfl
    | some t =>
      -- all tasks of one key come to what is forecast for it
      obtain ⟨r, -, hok⟩ := h.forecast_of_stored hd hr hc hs
      obtain ⟨o, ho', hadmits⟩ := h.ended hd hr hc hle hp
      obtain rfl := Option.some.inj (ho.symm.trans ho')
      obtain ⟨fs, hfs, -⟩ := hadmits
      exact absurd (hfs.symm.trans hok) nofun
  · obtain ⟨u, o, hsrc, hout, hmade⟩ := hren.followed.compiled hle hp ho
    cases o with
    | error f =>
      obtain rfl : g = f := by
        cases hmade
        rfl
      refine .inl ⟨u, hsrc.since.resolve_right fun hs => ?_, hsrc.place, hout⟩
      exact hren.sane.recorded.unfailed _ _ _ _ (hren.stays _ _ _ hs) hout
    | ok text =>
      refine .inr ⟨u, text, (h.stored_iff hd hr hc).2 ?_, hout, textCompiled_eq_error hmade⟩
      exact hsrc.since.symm.imp_right fun hle => ⟨hle, hsrc.place, text, hout⟩

/-- **What had failed is looked up again**, and what went well is not. -/
theorem Rendered.askedAgain {f : Fault}
    (hfail : e.FailsWith (lookupsOf (e.overlay d tree 0)) f c k)
    (hseeks : ∀ K, e.Wanted (e.cachedRegime d' tree') K c k →
      Program.Seeks (σ := signature) ((e.cachedRegime d' tree').contract e) K
        (e.program (.view file options)))
    (h' : e.Rendered tree' file options d' d'') : e.AskedAgain tree' file options f d' d'' := by
  have hd' := h.sane hd hr hc
  refine ⟨fun op hop => ?_, fun s op' hev => (h'.place_of_event hd' h.atRest hc hev).2.2,
    fun x hx => ?_⟩
  · obtain ⟨⟨gs, hgs, -⟩, hwanted⟩ := hfail.operation hop
    obtain ⟨c, k, hK, hs | ⟨s, hle, hp⟩⟩ :=
      Rendered.served hd' h.atRest hc h' (hseeks _ (hwanted _))
    · -- what had failed is not stored
      obtain ⟨s, hs⟩ := Option.ne_none_iff_exists'.1 hs
      obtain ⟨r, -, hok⟩ := h.forecast_of_stored hd hr hc hs
      rw [hK] at hgs
      exact absurd (hgs.symm.trans hok) nofun
    · obtain ⟨o, ho, -⟩ := h'.ended hd' h.atRest hc hle hp
      have hfollowed := (h'.rendering hd' h.atRest hc).followed
      unfold failedOp? at hop
      split at hop <;> cases hop <;> cases hK
      · exact ⟨s, hle, (hfollowed.walked hle hp ho).1⟩
      · exact ⟨s, hle, (hfollowed.opened hle hp ho).1⟩
  · obtain ⟨o, ho, hends⟩ := h'.endsAs hd' h.atRest hc
    rw [hx] at hends
    have hok : EndsAs (.ok x) (.ok (.value x)) := ⟨x, rfl, rfl⟩
    rw [hok.eq_ok hends] at ho
    exact ho

end

/-- **A view that fails keeps what went well.** Let a view that uses caches be started where no
work is in flight, and fail because lookups fail. However the work goes on, it comes to its
end. The view then has the fault of one of the lookups, and the caches hold what they held
before and the lookups since that went well. When the same view is asked for again, the walk
or the reading by which it had failed is begun again, nothing is done again that went well,
and the view is rendered if nothing is wrong any more. -/
theorem failed_view_keeps_successes (hd : e.Reached trees d) (hr : AtRest d) (hc : Caches options)
    (hf : e.LookupsFail (lookupsOf (e.overlay d tree 0)) file options) :
    e.ViewConcludes (e.world tree) d file options ∧
      (∀ b, Relation.ReflTransGen (e.Working tree) (start (.view file options) d).2 b →
        (∀ b', e.Working tree b b' → b' = b) → e.Rendered tree file options d b) ∧
      ∀ d', e.Rendered tree file options d d' → ∃ f, e.LeavesSuccesses file options d d' f := by
  have hsane := hd.sane
  have hconcludes : ∀ {d tree}, e.Sane d → AtRest d →
      e.ViewConcludes (e.world tree) d file options := fun {d tree} hd hr =>
    (view_foreseen (settled_cached hd.recorded hr tree) (answer_cached e d tree)
      (allowed_cached e d tree file hc)).1
  refine ⟨hconcludes hsane hr, fun b hb hrests => ⟨hb, ?_⟩, fun d' h => ?_⟩
  · exact (rendering hsane hr hc hb).atRest_of_rests hsane hr hrests
  · obtain ⟨f, s, c, k, hout, hle, hp, ho, hfail, hseeks⟩ := h.blamed hsane hr hc hf
    exact ⟨f, {
      failed := hout
      delivered := by
        rw [outcome, hout]
        rfl
      blamed := ⟨s, c, k, hle, hp, ho⟩
      stored_iff := fun c k s => h.stored_iff hsane hr hc
      text_kept := fun name s g => h.text_kept hsane hr hc
      again := fun tree' =>
        ⟨hconcludes (h.sane hsane hr hc) h.atRest, fun d'' h' =>
          h.askedAgain hsane hr hc hfail (hseeks tree') h'⟩ }⟩

/-! ### A view whose file is missing -/

/-- A partial, and no view. -/
def missingTree : FileTree where
  root := .directory [("p", .directory [("q.html", .file (Text.encodeUtf8 "c".toList))])]

/-- The desk when the view was asked for in vain. -/
def missingDesk : Desk :=
  sampleEngine.settle missingTree (start (.view (.str "/v.html") sampleOptions) {}).2

theorem Forecast.exists_of_toBool {α : Type} {v : Forecast α} :
    (v.toBool = true → ∃ a, v = .ok a) ∧ (v.toBool = false → ∃ fs, v = .error fs) := by
  cases v with
  | ok a => exact ⟨fun _ => ⟨a, rfl⟩, nofun⟩
  | error fs => exact ⟨nofun, fun _ => ⟨fs, rfl⟩⟩

/-- The view fails because its file is not there. -/
theorem lookupsFail_missing : sampleEngine.LookupsFail
    (lookupsOf (sampleEngine.overlay {} missingTree 0)) (.str "/v.html") sampleOptions := by
  have hplan : sampleEngine.planView (.str "/v.html") sampleOptions = .ok samplePlan := rfl
  refine .view hplan ⟨fun x hx => ?_, ?_⟩
  · have hfails : (sampleEngine.loadForecast (lookupsOf (sampleEngine.overlay {} missingTree 0))
        (.str "/v.html") samplePlan.options).toBool = false := by decide +kernel
    rw [hx] at hfails
    cases hfails
  · let L := lookupsOf (sampleEngine.overlay {} missingTree 0)
    let L' : Lookups :=
      { L with text := fun file => if file = "/v.html" then .ok "a" else L.text file }
    have hwell : (sampleEngine.loadForecast L' (.str "/v.html") samplePlan.options).toBool = true := by
      decide +kernel
    obtain ⟨x, hx⟩ := Forecast.exists_of_toBool.1 hwell
    refine ⟨L', x, ⟨fun dir => .inl rfl, fun file => ?_⟩, hx⟩
    by_cases hfile : file = "/v.html"
    · subst hfile
      exact .inr (Forecast.exists_of_toBool.2 (by decide +kernel))
    · exact .inl (if_neg hfile)

theorem rendered_missing :
    sampleEngine.Rendered missingTree (.str "/v.html") sampleOptions {} missingDesk where
  works := Board.settle_keeps (fun _ t hb => hb.tail (.resume ⟨_, rfl⟩ t))
    (fun _ t hb => hb.tail (.complete ⟨_, rfl⟩ t)) _ .refl
  atRest := atRest_of_all (by decide +kernel)

/-- The file of a view is missing: the view fails by reading it, and its partial stays stored. -/
theorem failed_view_keeps_successes_missing :
    sampleEngine.Reached (fun tree => tree = missingTree) {} ∧ AtRest {} ∧ Caches sampleOptions ∧
      sampleEngine.LookupsFail (lookupsOf (sampleEngine.overlay {} missingTree 0))
        (.str "/v.html") sampleOptions ∧
      (∃ f, sampleEngine.LeavesSuccesses (.str "/v.html") sampleOptions {} missingDesk f ∧
        failedOp? f = some (.open "/v.html")) ∧
      (cached? missingDesk .template "/p/q.html").isSome = true := by
  have hd : sampleEngine.Reached (fun tree => tree = missingTree) {} := .refl
  have hr : AtRest {} := fun t task ht => by simp at ht
  have hc : Caches sampleOptions := ⟨[(.str "cache", .bool true)], rfl, rfl⟩
  obtain ⟨f, hf⟩ :=
    (failed_view_keeps_successes hd hr hc lookupsFail_missing).2.2 _ rendered_missing
  refine ⟨hd, hr, hc, lookupsFail_missing, ⟨f, hf, ?_⟩, by decide +kernel⟩
  have hop : ((Board.outcome? (σ := signature) missingDesk 0).bind fun o =>
      o.casesOn (motive := fun _ => Option Op) failedOp? fun _ => none) =
        some (.open "/v.html") := by decide +kernel
  have hout : Board.outcome? (σ := signature) missingDesk 0 = some (.error f) := hf.failed
  rw [hout] at hop
  exact hop

end CachedViews.Engine
