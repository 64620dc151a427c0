import CachedViews.Proofs.Engine.Expected
import CachedViews.Proofs.Engine.OneFault
import CachedViews.Proofs.Engine.Uncached
import CachedViews.Proofs.Task.Seeks

/-
# Views that fail because lookups fail

A template and its partials are looked up under certain keys (`Engine.loadKeys`). If there
would be nothing wrong with them without the lookups that fail, then whatever fault is
forecast for them is that of one of these keys (`Engine.faultOf_load`). And a view that uses
caches is bound to look all of these keys up (`Engine.seeks_load`), whatever the files say by
then: the lookups before that went well stay as they are.

Key definitions: `Engine.Repaired`, `Engine.LookupsFail`, `Engine.FailsWith`,
`Engine.FaultOf`, `Engine.Wanted`, `Engine.Extends`, `Engine.viewKeys`.
Key theorems: `Engine.faultOf_load`, `Engine.seeks_load`, `Engine.seeks_view`,
`Engine.LookupsFail.exists_key`.
-/

namespace CachedViews.Engine

open Program

/-- The lookups `L'` go as `L` goes, except that what fails may go in another way. -/
structure Repaired (e : Engine) (L L' : Lookups) : Prop where
  names : ∀ dir, L'.names dir = L.names dir ∨ ∃ fs, namesForecast L dir = .error fs
  text : ∀ file, L'.text file = L.text file ∨ ∃ fs, e.compileForecast L file = .error fs

/-- A template or its partials are not found because lookups fail. If these lookups went
well, there would be nothing wrong. -/
def LoadFails (e : Engine) (L : Lookups) (file : Value) (o : RenderOptions) : Prop :=
  (∀ x, e.loadForecast L file o ≠ .ok x) ∧
    ∃ L' x, e.Repaired L L' ∧ e.loadForecast L' file o = .ok x

/-- A view fails because lookups fail: for its own template and partials, or when it has
been rendered for the template of its layout. -/
inductive LookupsFail (e : Engine) (L : Lookups) (file options : Value) : Prop
  | view {plan : ViewPlan} (hp : e.planView file options = .ok plan)
      (hl : e.LoadFails L file plan.options) : LookupsFail e L file options
  | layout {plan : ViewPlan} {h : Handle} {partials : List (String × Value)} {body : Value}
      {path : String} (hp : e.planView file options = .ok plan)
      (hl : e.loadForecast L file plan.options = .ok (h, partials))
      (hb : e.called h file (.dict plan.context) plan.options partials = .ok body)
      (hpath : layoutPath e.cwd plan.layoutsDir e.config.extname plan.options.layout = some path)
      (hf : e.LoadFails L (.str path)
        { plan.options with layout := none, partials := some partials }) :
      LookupsFail e L file options

/-- The lookup of a key fails with the fault `f`. -/
def FailsWith (e : Engine) (L : Lookups) (f : Fault) (c : CacheName) (k : String) : Prop :=
  ∃ fs, e.forecast L (jobAt c k) = .error fs ∧ f ∈ fs

/-- If `v` fails with the fault `f` and `v'` does not fail, the fault is that of a key. -/
def FaultOf {α : Type} (e : Engine) (L : Lookups) (f : Fault) (keys : List (CacheName × String))
    (v v' : Forecast α) : Prop :=
  ∀ a fs, v' = .ok a → v = .error fs → f ∈ fs → ∃ c k, (c, k) ∈ keys ∧ e.FailsWith L f c k

variable {α β γ δ : Type} {e : Engine} {R : Regime} {K : CacheName → String → Prop} {f : Fault}
  {Q : Fault → Prop} {L L' : Lookups} {keys keys' : List (CacheName × String)} {c : CacheName}
  {k : String} {fs : List Fault}

/-! ### Keys that fail -/

/-- Where a key fails there is one fault. -/
theorem lookup_eq_error (h : e.forecast L (jobAt c k) = .error fs) : ∃ f, fs = [f] := by
  have htext : ∀ {gs}, textForecast L k = .error gs → ∃ f, gs = [f] := by
    intro gs hgs
    unfold textForecast at hgs
    split at hgs <;> cases hgs <;> exact ⟨_, rfl⟩
  cases c with
  | directory =>
    change namesForecast L k = _ at h
    unfold namesForecast at h
    split at h <;> cases h
    exact ⟨_, rfl⟩
  | file => exact htext h
  | template =>
    change e.compileForecast L k = _ at h
    unfold compileForecast at h
    cases ht : textForecast L k with
    | error gs =>
      rw [ht] at h
      exact htext (ht.trans h)
    | ok text =>
      rw [ht] at h
      simp only [Bind.bind, Except.bind] at h
      split at h <;> cases h <;> exact ⟨_, rfl⟩

/-- There is no other fault that the lookup of a key may fail with. -/
theorem FailsWith.eq_error (h : e.FailsWith L f c k) {o : Except Fault Product}
    (ho : (e.forecast L (jobAt c k)).Admits Product.bare o) : o = .error f := by
  obtain ⟨fs, hfs, hf⟩ := h
  obtain ⟨g, rfl⟩ := lookup_eq_error hfs
  obtain rfl := List.mem_singleton.1 hf
  rw [hfs] at ho
  cases o with
  | ok r => cases ho
  | error g =>
    obtain ⟨gs, hgs, hg⟩ := ho
    obtain rfl := Except.error.inj hgs
    rw [List.mem_singleton.1 hg]

theorem Repaired.near (h : e.Repaired L L') : e.NearLookups (fun _ => True) L L' := by
  have hfails : ∀ {c k fs}, e.forecast L (jobAt c k) = .error fs →
      (e.forecast L (jobAt c k)).FailsBy fun _ => True := by
    intro c k fs hfs
    obtain ⟨f, rfl⟩ := lookup_eq_error hfs
    rw [hfs]
    exact failsBy_single trivial
  refine ⟨fun dir _ => ?_, fun file _ => ?_⟩
  · rcases h.names dir with hsame | ⟨fs, hfs⟩
    · unfold namesForecast
      rw [hsame]
      exact near_refl _
    · exact fun _ _ => .inr (hfails (c := .directory) (k := dir) hfs)
  · rcases h.text file with hsame | ⟨fs, hfs⟩
    · unfold compileForecast textForecast
      rw [hsame]
      exact near_refl _
    · exact fun _ _ => .inr (hfails (c := .template) (k := file) hfs)

/-! ### Whatever fails is the lookup of a key -/

theorem FaultOf.mono {v v' : Forecast α} (h : e.FaultOf L f keys v v') (hk : keys ⊆ keys') :
    e.FaultOf L f keys' v v' := fun a fs hv' hv hf =>
  let ⟨c, k, hmem, hfail⟩ := h a fs hv' hv hf
  ⟨c, k, hk hmem, hfail⟩

/-- What does not depend on lookups has no fault to be traced. -/
theorem faultOf_same (v : Forecast α) : e.FaultOf L f keys v v := by
  intro a fs ha hv
  rw [ha] at hv
  cases hv

theorem faultOf_bind {v v' : Forecast α} {kv kv' : α → Forecast β} (hnear : v.Near Q v')
    (hv : e.FaultOf L f keys v v')
    (hk : ∀ a, v = .ok a → e.FaultOf L f keys (kv a) (kv' a)) :
    e.FaultOf L f keys (v >>= kv) (v' >>= kv') := by
  intro b fs hb hfs hf
  cases v' with
  | error fs' => cases hb
  | ok a =>
    rcases hnear a rfl with rfl | ⟨gs, rfl, -, -⟩
    · exact hk a rfl b fs hb hfs hf
    · exact hv a gs rfl rfl (Except.error.inj hfs ▸ hf)

/-- A result that is sure has no fault to be traced if there is one. -/
theorem faultOf_of_bind {r : Except Fault α} {kv kv' : α → Forecast β}
    (hk : ∀ a, r = .ok a → e.FaultOf L f keys (kv a) (kv' a)) :
    e.FaultOf L f keys (Forecast.of r >>= kv) (Forecast.of r >>= kv') :=
  faultOf_bind (Q := fun _ => True) (near_refl _) (faultOf_same _) fun a ha =>
    hk a (Forecast.of_eq_ok.1 ha)

theorem Forecast.exists_of_mem_all {vs : β → Forecast α} {bs : List β} {fs : List Fault}
    (h : Forecast.all (bs.map vs) = .error fs) (hf : f ∈ fs) :
    ∃ b ∈ bs, ∃ gs, vs b = .error gs ∧ f ∈ gs := by
  induction bs generalizing fs with
  | nil => cases h
  | cons b bs ih =>
    have hlater : ∀ {gs}, Forecast.all (bs.map vs) = .error gs → f ∈ gs →
        ∃ b' ∈ b :: bs, ∃ gs, vs b' = .error gs ∧ f ∈ gs := by
      intro gs hgs hmem
      obtain ⟨b', hb', hfound⟩ := ih hgs hmem
      exact ⟨b', List.mem_cons_of_mem b hb', hfound⟩
    cases hb : vs b with
    | error gs =>
      rw [List.map_cons, hb, Forecast.all] at h
      cases h
      rcases List.mem_append.1 hf with hf | hf
      · exact ⟨b, by simp, gs, hb, hf⟩
      · cases hall : Forecast.all (bs.map vs) with
        | ok as => simp [hall, Forecast.faults] at hf
        | error gs' => exact hlater hall (by simpa [hall, Forecast.faults] using hf)
    | ok a =>
      rw [List.map_cons, hb, Forecast.all] at h
      cases hall : Forecast.all (bs.map vs) with
      | ok as =>
        rw [hall] at h
        cases h
      | error gs =>
        rw [hall] at h
        cases h
        exact hlater hall hf

theorem Forecast.ok_of_all {vs : β → Forecast α} {bs : List β} {as : List α}
    (h : Forecast.all (bs.map vs) = .ok as) {b : β} (hb : b ∈ bs) : ∃ a, vs b = .ok a := by
  induction bs generalizing as with
  | nil => cases hb
  | cons b' bs ih =>
    cases hv : vs b' with
    | error gs =>
      rw [List.map_cons, hv, Forecast.all] at h
      cases h
    | ok a =>
      rcases List.mem_cons.1 hb with rfl | hb
      · exact ⟨a, hv⟩
      · rw [List.map_cons, hv, Forecast.all] at h
        cases hall : Forecast.all (bs.map vs) with
        | error gs =>
          rw [hall] at h
          cases h
        | ok as' => exact ih hall hb

theorem faultOf_all {vs vs' : β → Forecast α} {bs : List β}
    (h : ∀ b ∈ bs, e.FaultOf L f keys (vs b) (vs' b)) :
    e.FaultOf L f keys (Forecast.all (bs.map vs)) (Forecast.all (bs.map vs')) := by
  intro as fs hv' hv hf
  obtain ⟨b, hb, gs, hgs, hmem⟩ := Forecast.exists_of_mem_all hv hf
  obtain ⟨a, ha⟩ := Forecast.ok_of_all hv' hb
  exact h b hb a gs ha hgs hmem

section

variable (hnear : e.NearLookups Q L L')

theorem faultOf_template (file : Value) : e.FaultOf L f (e.templateKeys file)
    (e.templateForecast L file) (e.templateForecast L' file) := by
  refine faultOf_of_bind fun key hkey => ?_
  rw [templateKeys, hkey]
  exact fun _ fs _ hfs hf => ⟨.template, key, List.mem_singleton_self _, fs, hfs, hf⟩

include hnear

theorem faultOf_templates (dir : Value) : e.FaultOf L f (e.templatesKeys L dir)
    (e.templatesForecast L dir) (e.templatesForecast L' dir) := by
  refine faultOf_of_bind fun key hkey => ?_
  unfold templatesKeys
  rw [hkey]
  refine faultOf_bind (hnear.names key trivial) ?_ fun names hnames => ?_
  · exact fun _ fs _ hfs hf => ⟨.directory, key, List.mem_cons_self, fs, hfs, hf⟩
  · simp only [hnames]
    refine faultOf_bind (near_all_map fun name _ => near_template hnear fun _ _ _ => trivial)
      (faultOf_all fun name hname => ?_) fun found _ => faultOf_same _
    exact (faultOf_template _).mono fun ck hck =>
      List.mem_cons_of_mem _ (List.mem_flatMap.2 ⟨name, hname, hck⟩)

theorem faultOf_source (s : Source) : e.FaultOf L f (e.sourceKeys L s) (e.sourceForecast L s)
    (e.sourceForecast L' s) := by
  cases s with
  | directory path n => exact faultOf_templates hnear _
  | templates v n => cases v <;> exact faultOf_same _

theorem faultOf_partials (sources : Value) : e.FaultOf L f (e.partialsKeys L sources)
    (e.partialsForecast L sources) (e.partialsForecast L' sources) := by
  refine faultOf_of_bind fun resolved hresolved => ?_
  rw [partialsKeys, hresolved]
  refine faultOf_bind (near_all_map fun s _ => near_source hnear fun _ _ _ => trivial)
    (faultOf_all fun s hs => ?_) fun products _ => faultOf_same _
  exact (faultOf_source hnear s).mono fun ck hck => List.mem_flatMap.2 ⟨s, hs, hck⟩

/-- **What is not found is the lookup of a key.** -/
theorem faultOf_load (file : Value) (o : RenderOptions) : e.FaultOf L f (e.loadKeys L file o)
    (e.loadForecast L file o) (e.loadForecast L' file o) := by
  unfold loadKeys loadForecast
  cases o.partials with
  | some ps =>
    refine faultOf_of_bind fun key hkey => ?_
    refine faultOf_bind (hnear.compile key trivial) ?_ fun found _ => faultOf_same _
    rw [templateKeys, hkey]
    exact fun _ fs _ hfs hf => ⟨.template, key, List.mem_singleton_self _, fs, hfs, hf⟩
  | none =>
    have hall : ∀ sources, e.FaultOf L f (e.templateKeys file ++ e.partialsKeys L sources)
        (Forecast.all [e.templateForecast L file, e.partialsForecast L sources])
        (Forecast.all [e.templateForecast L' file, e.partialsForecast L' sources]) := by
      intro sources
      have hjobs : ∀ job ∈ [Job.template file o.cache, Job.partials sources o.cache],
          e.FaultOf L f (e.templateKeys file ++ e.partialsKeys L sources) (e.forecast L job)
            (e.forecast L' job) := by
        intro job hj
        rcases List.mem_cons.1 hj with rfl | hj
        · exact (faultOf_template file).mono (List.subset_append_left _ _)
        · obtain rfl := List.mem_singleton.1 hj
          exact (faultOf_partials hnear sources).mono (List.subset_append_right _ _)
      exact faultOf_all hjobs
    exact faultOf_bind (Q := Q)
      (near_all (.cons (near_template hnear fun _ _ _ => trivial)
        (.cons (near_partials hnear fun _ _ _ => trivial) .nil)))
      (hall _) fun found _ => faultOf_same _

end

/-! ### All keys are looked up -/

/-- Looking a key up leads to one of the keys `K`. -/
abbrev Wanted (e : Engine) (R : Regime) (K : CacheName → String → Prop) (c : CacheName)
    (k : String) : Prop :=
  Program.Seeks (σ := signature) (R.contract e) K (cachedJob c k (jobAt c k))

/-- Where the lookups `L` go well for a key, so does the regime `R`. -/
def Extends (e : Engine) (R : Regime) (L : Lookups) (c : CacheName) (k : String) : Prop :=
  ∀ r, e.forecast L (jobAt c k) = .ok r → e.forecast R.lookups (jobAt c k) = .ok r

/-- What is sought behind a program that goes well by its forecast, the two seek together. -/
theorem seeks_behind {p : Work β} {next : β → Work δ} {v : Forecast α} {g : β → α} {a : α}
    (hx : Expects e R p v g) (hv : v = .ok a)
    (hk : ∀ b, a = g b → Program.Seeks (σ := signature) (R.contract e) K (next b)) :
    Program.Seeks (σ := signature) (R.contract e) K (p >>= next) := by
  refine seeks_bind (hx.mono fun o ho => ?_)
  subst hv
  cases o with
  | ok b => exact ⟨b, rfl, hk b (Except.ok.inj ho)⟩
  | error f =>
    obtain ⟨fs, hfs, -⟩ := ho
    cases hfs

theorem seeks_ofExcept {r : Except Fault α} {a : α} (hr : r = .ok a) {next : α → Work δ}
    (h : Program.Seeks (σ := signature) (R.contract e) K (next a)) :
    Program.Seeks (σ := signature) (R.contract e) K (Program.ofExcept r >>= next) := by
  subst hr
  exact h

section

variable (hw : e.Wanted R K c k)

include hw

theorem seeks_template {file : Value} (hk : (c, k) ∈ e.templateKeys file) :
    Program.Seeks (σ := signature) (R.contract e) K (e.program (.template file true)) := by
  unfold templateKeys at hk
  cases hkey : e.keyOf file with
  | error f => simp [hkey] at hk
  | ok key =>
    rw [hkey] at hk
    cases List.mem_singleton.1 hk
    exact seeks_ofExcept hkey hw

variable (huse : R.MayUse true)

include huse

theorem seeks_templates {dir : Value} (hk : (c, k) ∈ e.templatesKeys L dir)
    (hext : ∀ c k, (c, k) ∈ e.templatesKeys L dir → e.Extends R L c k) :
    Program.Seeks (σ := signature) (R.contract e) K (e.templatesBelow dir true) := by
  unfold templatesKeys at hk hext
  cases hkey : e.keyOf dir with
  | error f => simp [hkey] at hk
  | ok key =>
    rw [hkey] at hk hext
    refine seeks_ofExcept hkey ?_
    rcases List.mem_cons.1 hk with hk | hk
    · cases hk
      exact Seeks.bind (p := listing k true) hw _
    · -- the directory is listed as before, and its templates are looked up
      cases hnames : namesForecast L key with
      | error fs => simp [hnames] at hk
      | ok names =>
        simp only [hnames] at hk
        obtain ⟨name, hname, hk⟩ := List.mem_flatMap.1 hk
        refine seeks_behind (expects_listing huse) (hext _ _ List.mem_cons_self _ hnames)
          fun found hfound => ?_
        rw [hfound, Product.bare_asNames] at hname
        exact Seeks.bind (p := allJobs _)
          (.child (List.mem_map.2 ⟨name, hname, rfl⟩) (seeks_template hw hk)) _

theorem seeks_source {s : Source} (hk : (c, k) ∈ e.sourceKeys L s)
    (hext : ∀ c k, (c, k) ∈ e.sourceKeys L s → e.Extends R L c k) :
    Program.Seeks (σ := signature) (R.contract e) K (e.program (.source s true)) := by
  cases s with
  | directory path n => exact seeks_templates hw huse hk hext
  | templates v n => simp [sourceKeys] at hk

theorem seeks_partials {sources : Value} (hk : (c, k) ∈ e.partialsKeys L sources)
    (hext : ∀ c k, (c, k) ∈ e.partialsKeys L sources → e.Extends R L c k) :
    Program.Seeks (σ := signature) (R.contract e) K (e.program (.partials sources true)) := by
  unfold partialsKeys at hk hext
  cases hresolved : (entriesOf sources).mapM Source.ofEntry with
  | error f => simp [hresolved] at hk
  | ok resolved =>
    rw [hresolved] at hk hext
    obtain ⟨s, hs, hk⟩ := List.mem_flatMap.1 hk
    have hsource := seeks_source hw huse hk fun c k hck =>
      hext c k (List.mem_flatMap.2 ⟨s, hs, hck⟩)
    refine seeks_ofExcept hresolved ?_
    exact Seeks.bind (p := allJobs _) (.child (List.mem_map.2 ⟨s, hs, rfl⟩) hsource) _

omit huse in
/-- With partials that are given, only the template is looked up. -/
theorem seeks_load_given {file : Value} {o : RenderOptions} {ps : List (String × Value)}
    (ho : o.cache = true) (hp : o.partials = some ps) (hk : (c, k) ∈ e.templateKeys file) :
    Program.Seeks (σ := signature) (R.contract e) K (e.load file o) := by
  unfold templateKeys at hk
  unfold load
  rw [ho, hp]
  cases hkey : e.keyOf file with
  | error f => simp [hkey] at hk
  | ok key =>
    rw [hkey] at hk
    cases List.mem_singleton.1 hk
    exact Seeks.bind (p := template k true) hw _

/-- **All keys of a template and of its partials are looked up.** -/
theorem seeks_load {file : Value} {o : RenderOptions} (ho : o.cache = true)
    (hk : (c, k) ∈ e.loadKeys L file o)
    (hext : ∀ c k, (c, k) ∈ e.loadKeys L file o → e.Extends R L c k) :
    Program.Seeks (σ := signature) (R.contract e) K (e.load file o) := by
  unfold loadKeys at hk hext
  cases hp : o.partials with
  | some ps =>
    rw [hp] at hk
    exact seeks_load_given hw ho hp hk
  | none =>
    rw [hp] at hk hext
    unfold load
    rw [ho, hp]
    rcases List.mem_append.1 hk with hk | hk
    · exact Seeks.bind (p := allJobs _) (.child List.mem_cons_self (seeks_template hw hk)) _
    · have hpartials := seeks_partials hw huse hk fun c k hck =>
        hext c k (List.mem_append_right _ hck)
      exact Seeks.bind (p := allJobs _)
        (.child (List.mem_cons_of_mem _ (List.mem_singleton_self _)) hpartials) _

end

/-- What is found is found as before where its keys go as before. -/
theorem load_of_extends {file : Value} {o : RenderOptions} {x : Handle × List (String × Value)}
    (hext : ∀ c k, (c, k) ∈ e.loadKeys L file o → e.Extends R L c k)
    (h : e.loadForecast L file o = .ok x) : e.loadForecast R.lookups file o = .ok x := by
  have hl : e.NearOn (fun _ => False) (fun c k => (c, k) ∈ e.loadKeys L file o) R.lookups L :=
    ⟨fun dir hV r hr => .inl (hext .directory dir hV r hr),
      fun file hV r hr => .inl (hext .template file hV r hr)⟩
  refine (near_load hl (fun _ _ h => h) x h).resolve_right ?_
  rintro ⟨fs, -, hne, hfs⟩
  obtain ⟨g, hg⟩ := List.exists_mem_of_ne_nil fs hne
  exact hfs g hg

/-! ### Views -/

variable {file options : Value} {o : RenderOptions}

theorem LoadFails.exists_error (h : e.LoadFails L file o) :
    ∃ fs, e.loadForecast L file o = .error fs := by
  cases hl : e.loadForecast L file o with
  | ok x => exact absurd hl (h.1 x)
  | error fs => exact ⟨fs, rfl⟩

theorem LoadFails.exists_key (h : e.LoadFails L file o) (hfs : e.loadForecast L file o = .error fs)
    (hf : f ∈ fs) : ∃ c k, (c, k) ∈ e.loadKeys L file o ∧ e.FailsWith L f c k := by
  obtain ⟨-, L', x, hrep, hx⟩ := h
  exact faultOf_load hrep.near file o x fs hx hfs hf

section

variable {plan : ViewPlan} {h : Handle} {partials : List (String × Value)} {body : Value}
  {path : String}

/-- What is not found for a view itself is not found for the view. -/
theorem viewForecast_of_load (hp : e.planView file options = .ok plan)
    (hl : e.loadForecast L file plan.options = .error fs) :
    e.viewForecast L file options = .error fs := by
  unfold viewForecast planForecast
  rw [hp]
  simp only [Forecast.of, Except.mapError, Bind.bind, Except.bind, hl]

/-- What is not found for the layout of a view is not found for the view. -/
theorem viewForecast_of_layout (hp : e.planView file options = .ok plan)
    (hl : e.loadForecast L file plan.options = .ok (h, partials))
    (hb : e.called h file (.dict plan.context) plan.options partials = .ok body)
    (hpath : layoutPath e.cwd plan.layoutsDir e.config.extname plan.options.layout = some path)
    (hf : e.loadForecast L (.str path)
      { plan.options with layout := none, partials := some partials } = .error fs) :
    e.viewForecast L file options = .error fs := by
  unfold viewForecast planForecast
  rw [hp]
  simp only [Forecast.of, Except.mapError, Bind.bind, Except.bind, hl, hb, hpath, renderForecast,
    hf]

/-- A view is bound to look up all keys of its template and of its partials. -/
theorem seeks_view (hc : Caches options) (hw : e.Wanted R K c k) (huse : R.MayUse true)
    (hp : e.planView file options = .ok plan) (hk : (c, k) ∈ e.loadKeys L file plan.options)
    (hext : ∀ c k, (c, k) ∈ e.loadKeys L file plan.options → e.Extends R L c k) :
    Program.Seeks (σ := signature) (R.contract e) K (e.program (.view file options)) := by
  refine Seeks.bind (p := e.view file options) (seeks_ofExcept hp ?_) _
  exact Seeks.bind (p := e.load file plan.options)
    (seeks_load hw huse (hc.planView hp) hk hext) _

/-- A view whose own template and partials are found, and that is rendered, is bound to look up
the template of its layout. -/
theorem seeks_layout (hc : Caches options) (hw : e.Wanted R K c k) (huse : R.MayUse true)
    (hp : e.planView file options = .ok plan)
    (hl : e.loadForecast L file plan.options = .ok (h, partials))
    (hb : e.called h file (.dict plan.context) plan.options partials = .ok body)
    (hpath : layoutPath e.cwd plan.layoutsDir e.config.extname plan.options.layout = some path)
    (hk : (c, k) ∈ e.templateKeys (.str path))
    (hext : ∀ c k, (c, k) ∈ e.loadKeys L file plan.options → e.Extends R L c k) :
    Program.Seeks (σ := signature) (R.contract e) K (e.program (.view file options)) := by
  have hcache := hc.planView hp
  refine Seeks.bind (p := e.view file options) (seeks_ofExcept hp ?_) _
  refine seeks_behind (p := e.load file plan.options) (expects_load file (hcache ▸ huse))
    (load_of_extends hext hl) fun loaded hloaded => ?_
  obtain ⟨h, ps⟩ := loaded
  obtain ⟨rfl, rfl⟩ := Prod.mk.inj hloaded
  refine seeks_behind (expects_apply _ _ _ _ _) (Forecast.of_eq_ok.2 hb) fun b hb' => ?_
  obtain rfl : body = b := hb'
  rw [hpath]
  have hload : Program.Seeks (σ := signature) (R.contract e) K
      (e.load (.str path) { plan.options with layout := none, partials := some partials }) :=
    seeks_load_given hw hcache rfl hk
  exact .note ((hload.bind _).bind _)

end

/-- The keys of a view itself, without its layout. -/
def viewKeys (e : Engine) (L : Lookups) (file options : Value) : List (CacheName × String) :=
  match e.planView file options with
  | .ok plan => e.loadKeys L file plan.options
  | .error _ => []

theorem LookupsFail.exists_error (h : e.LookupsFail L file options) :
    ∃ fs, e.viewForecast L file options = .error fs := by
  cases h with
  | view hp hl =>
    obtain ⟨fs, hfs⟩ := hl.exists_error
    exact ⟨fs, viewForecast_of_load hp hfs⟩
  | layout hp hl hb hpath hf =>
    obtain ⟨fs, hfs⟩ := hf.exists_error
    exact ⟨fs, viewForecast_of_layout hp hl hb hpath hfs⟩

/-- **A view that fails because lookups fail is bound to make the lookup that it fails by**,
whatever the files say by then, if what goes well for the view itself stays as it is. -/
theorem LookupsFail.exists_key (h : e.LookupsFail L file options) (hc : Caches options)
    (hfs : e.viewForecast L file options = .error fs) (hf : f ∈ fs) :
    ∃ c k, e.FailsWith L f c k ∧ ∀ R K, e.Wanted R K c k → R.MayUse true →
      (∀ c k, (c, k) ∈ e.viewKeys L file options → e.Extends R L c k) →
        Program.Seeks (σ := signature) (R.contract e) K (e.program (.view file options)) := by
  cases h with
  | @view plan hp hl =>
    obtain ⟨gs, hgs⟩ := hl.exists_error
    obtain rfl : fs = gs := Except.error.inj (hfs.symm.trans (viewForecast_of_load hp hgs))
    obtain ⟨c, k, hk, hfail⟩ := hl.exists_key hgs hf
    refine ⟨c, k, hfail, fun R K hw huse hext => seeks_view hc hw huse hp hk ?_⟩
    rwa [viewKeys, hp] at hext
  | @layout plan h partials body path hp hl hb hpath hlf =>
    obtain ⟨gs, hgs⟩ := hlf.exists_error
    obtain rfl : fs = gs :=
      Except.error.inj (hfs.symm.trans (viewForecast_of_layout hp hl hb hpath hgs))
    obtain ⟨c, k, hk, hfail⟩ := hlf.exists_key hgs hf
    refine ⟨c, k, hfail, fun R K hw huse hext => seeks_layout hc hw huse hp hl hb hpath hk ?_⟩
    rwa [viewKeys, hp] at hext

end CachedViews.Engine
