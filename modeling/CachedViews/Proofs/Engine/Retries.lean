import CachedViews.Proofs.Engine.Provenance

/-
# Retrying a compilation that failed

A template whose text does not compile leaves its cache, but the text does not leave the cache
for texts: nothing about reading it went wrong. So the next request for the template compiles
the same text again and fails in the same way, whatever the file says by then. The file is
read again only when the caches were emptied (`Engine.compilation_retried`).

Key definitions: `Engine.NextEnds`, `Engine.Retried`.
Key theorems: `Engine.failed_compilation`, `Engine.kept_or_cleared`,
`Engine.Recorded.concludes`, `Engine.NextEnds.reads`, `Engine.NextEnds.keeps`,
`Engine.compilation_retried`.
-/

namespace CachedViews.Engine

variable {e : Engine} {trees later : FileTree → Prop} {d₀ d d' d₁ : Desk} {tree : FileTree}
  {file : String} {c : CacheName} {k : String} {t s : Nat} {o o' : Except Fault Product}

/-! ### The step in which a compilation fails -/

theorem followed_self (hd : e.Reached trees d) : e.Followed trees trees {} d :=
  followed .refl hd

/-- Reading a file does not fail as compiling one does. -/
theorem ne_compiling_of_forecast {f : Fault} (h : e.ForecastIn trees (.open file) (.error f))
    (file' : String) (g : SyntaxFault) : f ≠ .view (.compiling file' g) := by
  rintro rfl
  obtain ⟨tree, -, fs, hfs, hf⟩ := h
  change textForecast _ file = _ at hfs
  unfold textForecast at hfs
  split at hfs
  · cases hfs
  · cases hfs
    simp at hf
  · cases hfs
    simp at hf

/-- Compiling a text fails with one fault at most. -/
theorem textCompiled_eq_error {text : Product} {f : Fault}
    (h : e.MadeOf file (.ok text) (.error f)) : e.textCompiled file text = .error [f] := by
  obtain ⟨fs, hfs, hf⟩ := h
  rw [hfs]
  unfold textCompiled at hfs
  split at hfs
  · cases hfs
  · cases hfs
    rw [List.mem_singleton.1 hf]
  · cases hfs
    rw [List.mem_singleton.1 hf]

/-- A task of a template that comes to fail because its text does not compile has that text
from the cache. -/
theorem text_of_failing (hd : e.Reached trees d)
    (hs : Board.stored? (σ := signature) d .template file = some t) {task : Task signature}
    (ht : d.tasks[t]? = some task) {w : World signature} {p : Work Product}
    (hp : Board.GoesOn e.program w d task p) {f : SyntaxFault}
    (hh : Board.halt w d p = .ended (.error (.view (.compiling file f)))) :
    ∃ s r, Board.stored? (σ := signature) d .file file = some s ∧
      Board.outcome? (σ := signature) d s = some (.ok r) ∧
      Board.halt w d p = Board.halt w d (compileText file r) := by
  have hrec := hd.recorded
  have hpl := (Board.place?_eq ht).symm.trans (hrec.upheld.orderly.stored .template file t hs)
  have hj : task.job = Job.compile file true :=
    hrec.upheld.placed t task .template file (Nat.zero_le t) ht hpl
  have hb := hrec.coherent file t task hs ht
  cases hp with
  | first hfresh =>
    rw [hj] at hh ⊢
    rcases halt_compile e w d file with ⟨-, hh'⟩ | ⟨s, hst, ⟨-, hh'⟩ | ⟨r, ho, hh'⟩ | ⟨g, ho, hh'⟩⟩
    · rw [hh] at hh'
      cases hh'
    · rw [hh] at hh'
      cases hh'
    · exact ⟨s, r, hst, ho, hh'⟩
    · exact absurd ho (hrec.unfailed .file file s g hst)
  | @joined s next r hjoin ho =>
    rw [hjoin] at hb
    obtain ⟨rfl, hst | ⟨g, hg⟩⟩ := hb
    · exact ⟨s, r, hst, ho, rfl⟩
    · rw [hg] at ho
      cases ho
  | @joinFailed s next g hjoin ho =>
    -- reading the file has failed, and not as compiling does
    have hself := followed_self hd
    have hprog : e.program task.job =
        .lookup CacheName.file file (Job.open file) (compileText file) := by
      rw [hj]
      exact program_compile e file
    have hfind := hself.traced.finding t task _ _ _ _ (e.MadeOf file) (Nat.zero_le t) ht hprog
      ends_compileText fun f => rfl
    rw [hjoin] at hfind
    cases hfind with
    | joining hsrc =>
      have hopen := (hself.opened (Nat.zero_le s) hsrc.place ho).2
      cases hh
      exact absurd rfl (ne_compiling_of_forecast hopen file f)
  | answered hphase =>
    rw [hphase] at hb
    exact hb.elim
  | gathered hphase hr =>
    rw [hphase] at hb
    exact hb.elim
  | gatherFailed hphase hg =>
    rw [hphase] at hb
    exact hb.elim

/-- **A compilation that fails leaves its text behind.** In the step in which the task of a
template fails because its text does not compile, the template is removed. The text is the
one that is stored for the file, and stays stored. -/
theorem failed_compilation (hd : e.Reached trees d)
    (hs : Board.stored? (σ := signature) d .template file = some t) (h : e.Happens trees d d₁)
    {f : SyntaxFault} (hf : Board.outcome? (σ := signature) d₁ t =
      some (.error (.view (.compiling file f)))) :
    Board.stored? (σ := signature) d₁ .template file = none ∧
      ∃ s text, Board.stored? (σ := signature) d₁ .file file = some s ∧
        Board.outcome? (σ := signature) d₁ s = some (.ok (.text text)) ∧
        e.textCompiled file (.text text) = .error [.view (.compiling file f)] := by
  have hrec := hd.recorded
  obtain ⟨x, hx, hxo⟩ := Board.outcome?_eq_some.1 hf
  rcases h.onward.became hx with
    ⟨-, hfresh⟩ | ⟨task, ht, -, hsame | ⟨-, hend⟩ | ⟨w, p, hw, hp, rfl, hph⟩⟩
  · rw [hxo] at hfresh
    cases hfresh
  · have ho : Board.outcome? (σ := signature) d t = _ :=
      Board.outcome?_eq_some.2 ⟨task, ht, hsame.symm.trans hxo⟩
    exact absurd ho (hrec.unfailed .template file t _ hs)
  · rw [hxo] at hend
    cases hend
  have hh : Board.halt w d p = .ended (.error (.view (.compiling file f))) := by
    rw [hxo] at hph
    generalize Board.halt w d p = stop at hph
    cases stop <;> cases hph
    rfl
  have hpl := hrec.upheld.orderly.stored .template file t hs
  obtain ⟨s, r, hst, ho, hhr⟩ := text_of_failing hd hs ht hp hh
  obtain ⟨-, text, -, -, rfl⟩ := hrec.lookedUp hst ho
  have ho' := h.onward.grows.outcome? ho
  refine ⟨?_, s, text, ?_, ho', ?_⟩
  · refine (Board.stored?_run (Board.lt_of_getElem? ht) _ _).trans ?_
    rw [hh]
    exact if_pos ⟨hpl, hs⟩
  · rcases Board.stored_or_failed_run ht hst with hst' | ⟨g, hg⟩
    · exact hst'
    · rw [hg] at ho'
      cases ho'
  · obtain ⟨o, hend, hmade⟩ := Board.halt_of_ends (ends_compileText (.text text)) hw d
    rw [hhr, hend] at hh
    cases hh
    exact textCompiled_eq_error hmade

/-! ### What is stored stays -/

/-- A good result leaves its cache only when the cache is emptied. -/
theorem Happens.kept_or_cleared (h : e.Happens trees d d')
    (hs : Board.stored? (σ := signature) d c k = some s) {r : Product}
    (ho : Board.outcome? (σ := signature) d s = some (.ok r)) :
    Board.stored? (σ := signature) d' c k = some s ∨
      ∃ es, d'.journal = es ++ d.journal ∧ .cleared c ∈ es := by
  have ho' := h.onward.grows.outcome? ho
  have hmove : ∀ {w : World signature} {t : Nat}, Board.Move e.program w t d d' →
      Board.stored? (σ := signature) d' c k = some s := by
    intro w t hm
    rcases hm.stored_or_failed hs with hs' | ⟨f, hf⟩
    · exact hs'
    · rw [hf] at ho'
      cases ho'
  cases h with
  | start job => exact .inl hs
  | resume ht t => exact .inl (hmove (Board.move_resume _ _ t d))
  | complete ht t => exact .inl (hmove (Board.move_complete _ _ t d))
  | cancel t hp =>
    left
    unfold Board.cancel
    split
    · exact (Board.stored?_cancelAll [t] d c k).trans hs
    · exact hs
  | reset =>
    refine .inr ⟨[.cleared CacheName.template, .cleared CacheName.file,
      .cleared CacheName.directory], rfl, ?_⟩
    cases c <;> simp

/-- **Until the cache is emptied.** By induction on the run. -/
theorem kept_or_cleared (hd : e.Reached trees d₀)
    (hr : Relation.ReflTransGen (e.Happens later) d₀ d)
    (hs : Board.stored? (σ := signature) d₀ c k = some s) {r : Product}
    (ho : Board.outcome? (σ := signature) d₀ s = some (.ok r)) :
    Board.stored? (σ := signature) d c k = some s ∨
      .cleared c ∈ Board.eventsSince (σ := signature) d₀ d := by
  induction hr with
  | refl => exact .inl hs
  | @tail b b' hr' h ih =>
    have hsrc := (followed hd hr').traced.sourced
    rcases ih with hst | hcleared
    · rcases h.kept_or_cleared hst (hsrc.grows.outcome? ho) with hst' | ⟨es, hes, hc⟩
      · exact .inl hst'
      · right
        rw [Board.eventsSince_append hsrc.journal hes]
        exact List.mem_append_left _ hc
    · right
      obtain ⟨es, hes, -⟩ := h.onward.found
      rw [Board.eventsSince_append hsrc.journal hes]
      exact List.mem_append_right _ hcleared

/-! ### The next request -/

/-- The surroundings of an engine while the files are as in one of the trees. -/
def worldsOf (e : Engine) (trees : FileTree → Prop) (w : World signature) : Prop :=
  ∃ tree n, trees tree ∧ w = e.world tree n

/-- **Every task comes to its end**, however the work goes on. -/
theorem Recorded.concludes (hd : e.Recorded trees d) (hl : ∀ tree, later tree → trees tree)
    (hne : ∃ tree, later tree) {task : Task signature} (ht : d.tasks[t]? = some task) :
    Board.Concludes e.program (e.worldsOf later) t d := by
  have hnew : Board.Settled (e.records trees) ({} : Desk) := Board.settled_empty fun _ => trivial
  have hanswer : ∀ w, e.worldsOf later w → ∀ op, (e.records trees).answer op (w op) := by
    rintro w ⟨tree, n, htree, rfl⟩ op
    exact ⟨tree, n, hl tree htree, rfl⟩
  have hworld : ∃ w, e.worldsOf later w := by
    obtain ⟨tree, htree⟩ := hne
    exact ⟨e.world tree 0, tree, 0, htree, rfl⟩
  refine ⟨hd.upheld.acc_works hnew hanswer, fun b hb hrests => ?_⟩
  obtain ⟨x, hx, -⟩ := Board.grows_worksTo hb t task ht
  rw [Board.outcome?_eq hx]
  exact (hd.upheld.worksTo hnew hanswer hb).ended_of_rests hnew hanswer hworld hrests hx

/-- The request for a template with caching that is started next on the desk `d` has ended on
the later desk `d'`, and was not asked to stop. -/
def NextEnds (e : Engine) (later : FileTree → Prop) (d : Desk) (path : Value) (d' : Desk)
    (o : Except Fault Product) : Prop :=
  Relation.ReflTransGen (e.Happens later) (start (.template path true) d).2 d' ∧
    ∃ task : Task signature, d'.tasks[d.tasks.length]? = some task ∧
      task.cancelRequested = false ∧ task.phase = .ended o

variable {path : Value}

/-- Where no template is stored, the next request gives what is made of a text: of one that is
stored, or of one that is read since. -/
theorem NextEnds.made (h : e.NextEnds later d path d' o) (hd : e.Reached trees d)
    (hn : Board.stored? (σ := signature) d .template file = none) (hk : e.keyOf path = .ok file) :
    ∃ s o', Board.Source (σ := signature) d d' .file file s ∧
      Board.outcome? (σ := signature) d' s = some o' ∧ e.MadeOf file o' o := by
  obtain ⟨hr, task, ht, hc, ho⟩ := h
  have hf : e.Followed trees later d d' := followed hd (.head (.start _) hr)
  have hj : task.job = Job.template path true := by
    have hrun := followed (hd.tail (.start (.template path true))) hr
    obtain ⟨task', ht', hl⟩ :=
      hrun.traced.sourced.grows d.tasks.length _ List.getElem?_concat_length
    obtain rfl := Option.some.inj (ht.symm.trans ht')
    exact hl.job
  have hlook : e.lookupOf task.job = some (.template, file) := by
    rw [hj]
    exact lookupOf_template hk
  obtain ⟨t', hs, ho'⟩ := hf.answered (Nat.le_refl _) ht hlook hc ho
  exact hf.compiled (hs.started hn) hs.place ho'

/-- Where no text is stored, the next request reads the file again, and gives what is made of
what the file says now. -/
theorem NextEnds.reads (h : e.NextEnds later d path d' o) (hd : e.Reached trees d)
    (hn : Board.stored? (σ := signature) d .template file = none) (hk : e.keyOf path = .ok file)
    (hfile : Board.stored? (σ := signature) d .file file = none) {text : String} {v : Value}
    (htext : ∀ tree, later tree → tree.openText e.cwd file = .ok text)
    (hv : e.compiler.compile e.config.compilerOptions file text = .ok v) :
    ∃ h s, o = .ok (.template h) ∧ h.value = v ∧
      .began s (.open file) ∈ Board.eventsSince (σ := signature) d d' := by
  obtain ⟨s, o', hs, ho', hm⟩ := h.made hd hn hk
  have hf : e.Followed trees later d d' := followed hd (.head (.start _) h.1)
  obtain ⟨hb, tree, htree, hadmits⟩ := hf.opened (hs.started hfile) hs.place ho'
  have hforecast : e.forecast (lookupsOf (e.world tree 0)) (.open file) = .ok (.text text) :=
    textForecast_of_ok (htext tree htree)
  have hmade : e.textCompiled file (.text text) = .ok (.template ⟨none, v⟩) := by
    unfold textCompiled
    rw [Product.asText, hv]
  rw [hforecast] at hadmits
  cases o' with
  | error f =>
    obtain ⟨fs, hfs, -⟩ := hadmits
    cases hfs
  | ok r =>
    have hr : Product.text text = r.bare := Except.ok.inj hadmits
    obtain rfl : r = .text text := by
      cases r <;> cases hr
      rfl
    have ho : (e.textCompiled file (.text text)).Admits Product.bare o := hm
    rw [hmade] at ho
    cases o with
    | error f =>
      obtain ⟨fs, hfs, -⟩ := ho
      cases hfs
    | ok p =>
      have hp : Product.template ⟨none, v⟩ = p.bare := Except.ok.inj ho
      cases p <;> cases hp
      exact ⟨_, s, rfl, rfl, hb⟩

/-- As long as a text stays stored that was read when the next request was started, the request
gives what is made of it, and no task is started to read the file for the caches. -/
theorem NextEnds.keeps (h : e.NextEnds later d path d' o) (hd : e.Reached trees d)
    (hn : Board.stored? (σ := signature) d .template file = none) (hk : e.keyOf path = .ok file)
    (hs : Board.stored? (σ := signature) d' .file file = some s) {r : Product}
    (ho : Board.outcome? (σ := signature) d s = some (.ok r)) :
    e.MadeOf file (.ok r) o ∧
      ∀ u, Board.place? (σ := signature) d' u = some (.file, file) → u ≤ s := by
  have hf : e.Followed trees later d d' := followed hd (.head (.start _) h.1)
  have hsrc := hf.traced.sourced
  have hlt : s < d.tasks.length := by
    obtain ⟨x, hx, -⟩ := Board.outcome?_eq_some.1 ho
    exact Board.lt_of_getElem? hx
  have hnewest : ∀ u, Board.place? (σ := signature) d' u = some (.file, file) → u ≤ s :=
    fun u hp => hsrc.orderly.newest .file file s u hs hp
  refine ⟨?_, hnewest⟩
  -- the text that the request finds was stored as well when it was started, so it is the same
  have hst := (hsrc.stored .file file s hs).since.resolve_left (Nat.not_le.2 hlt)
  obtain ⟨u, o', hu, ho', hm⟩ := h.made hd hn hk
  have hle := Nat.lt_of_le_of_lt (hnewest u hu.place) hlt
  obtain rfl : s = u :=
    Option.some.inj (hst.symm.trans (hu.since.resolve_left (Nat.not_le.2 hle)))
  obtain rfl : .ok r = o' := Option.some.inj ((hsrc.grows.outcome? ho).symm.trans ho')
  exact hm

/-- What becomes of a request for a template that comes next when compiling its text failed: it
is started on the desk `d₂` and followed to the desk `d₃`. The text was stored as the outcome
of the task `s` on the desk `d₁`. -/
structure Retried (e : Engine) (later : FileTree → Prop) (file : String) (f : SyntaxFault)
    (s : TaskId) (d₁ d₂ d₃ : Desk) (path : Value) : Prop where
  /-- It comes to its end. -/
  concludes : (∃ tree, later tree) →
    Board.Concludes e.program (e.worldsOf later) d₂.tasks.length d₃
  /-- Where nothing was cleared it fails again, and no task was started to read the file. -/
  failsAgain : .cleared .file ∉ Board.eventsSince (σ := signature) d₁ d₃ →
    ∀ o, e.NextEnds later d₂ path d₃ o → o = .error (.view (.compiling file f)) ∧
      ∀ u, Board.place? (σ := signature) d₃ u = some (.file, file) → u ≤ s
  /-- Where no text is stored any more, it reads the file and gives the template of its text. -/
  readsAgain : Board.stored? (σ := signature) d₂ .file file = none → ∀ text v,
    (∀ tree, later tree → tree.openText e.cwd file = .ok text) →
    e.compiler.compile e.config.compilerOptions file text = .ok v →
    ∀ o, e.NextEnds later d₂ path d₃ o → ∃ h u, o = .ok (.template h) ∧ h.value = v ∧
      .began u (.open file) ∈ Board.eventsSince (σ := signature) d₂ d₃

/-- **A compilation that failed is retried with the same text** until the caches are emptied.
Let the task of a template fail because the text of its file does not compile. The template
is not stored then, but the text is, until the cache for texts is cleared. Whatever happens,
and whatever the file says by then: a request for the template that comes next comes to its
end. If nothing was cleared, it fails with the same fault, and no task was started since to
read the file for the caches. If no text was stored any more when it came, the file is read
again for it and it gives the template of the new text. -/
theorem compilation_retried (hd : e.Reached trees d)
    (hs : Board.stored? (σ := signature) d .template file = some t) (h : e.Happens trees d d₁)
    {f : SyntaxFault} (hf : Board.outcome? (σ := signature) d₁ t =
      some (.error (.view (.compiling file f)))) :
    Board.stored? (σ := signature) d₁ .template file = none ∧
    ∃ s text, Board.stored? (σ := signature) d₁ .file file = some s ∧
      Board.outcome? (σ := signature) d₁ s = some (.ok (.text text)) ∧
      ∀ d₂, Relation.ReflTransGen (e.Happens trees) d₁ d₂ →
        (Board.stored? (σ := signature) d₂ .file file = some s ∨
          .cleared .file ∈ Board.eventsSince (σ := signature) d₁ d₂) ∧
        ∀ (later : FileTree → Prop) (path : Value) (d₃ : Desk),
          Board.stored? (σ := signature) d₂ .template file = none → e.keyOf path = .ok file →
          Relation.ReflTransGen (e.Happens later) (start (.template path true) d₂).2 d₃ →
          e.Retried later file f s d₁ d₂ d₃ path := by
  obtain ⟨hgone, s, text, hst, hso, hbad⟩ := failed_compilation hd hs h hf
  have hd₁ : e.Reached trees d₁ := hd.tail h
  refine ⟨hgone, s, text, hst, hso, fun d₂ hr₂ => ⟨kept_or_cleared hd₁ hr₂ hst hso, ?_⟩⟩
  intro later path d₃ hn hk hr₃
  have hd₂ : e.Reached trees d₂ := hd₁.trans hr₂
  refine ⟨fun hne => ?_, fun hkept o hend => ?_, fun hfile text' v htext hv o hend => ?_⟩
  · have hrun := followed hd₂ (.head (.start (.template path true)) hr₃)
    have hstarted := followed (hd₂.tail (.start (.template path true))) hr₃
    obtain ⟨task, ht, -⟩ :=
      hstarted.traced.sourced.grows d₂.tasks.length _ List.getElem?_concat_length
    exact hrun.recorded.concludes (fun _ => Or.inr) hne ht
  · -- the text is stored all the time, from `d₁` on
    have hwhole : Relation.ReflTransGen (e.Happens fun tree => trees tree ∨ later tree) d₁ d₃ :=
      (Relation.ReflTransGen.mono (fun _ _ => Happens.mono fun _ => Or.inl) _ _ hr₂).trans
        (.head (.start _) (Relation.ReflTransGen.mono
          (fun _ _ => Happens.mono fun _ => Or.inr) _ _ hr₃))
    have hst₃ := (kept_or_cleared hd₁ hwhole hst hso).resolve_right hkept
    have hso₂ := (followed hd₁ hr₂).traced.sourced.grows.outcome? hso
    obtain ⟨hm, hnewest⟩ := hend.keeps hd₂ hn hk hst₃ hso₂
    refine ⟨?_, hnewest⟩
    have ho : (e.textCompiled file (.text text)).Admits Product.bare o := hm
    rw [hbad] at ho
    cases o with
    | ok p => cases ho
    | error g =>
      obtain ⟨fs, hfs, hg⟩ := ho
      cases hfs
      rw [List.mem_singleton.1 hg]
  · exact hend.reads hd₂ hn hk hfile htext hv

/-! ### A view whose text does not compile -/

/-- The fault of an outcome. -/
def fault? : Except Fault Product → Option Fault
  | .ok _ => none
  | .error f => some f

/-- What is wrong with a loop that names nothing to loop over. -/
def sampleMalformation : SyntaxFault where
  line := 1
  text := "Expected an expression, got 'end of statement block'"

/-- A template was asked for, and the file was read for it. The text does not compile. -/
def malformedDesk : Desk :=
  let tree := sampleTree "{% for %}"
  let d := (start (.template (.str "/v.html") true) {}).2
  let d := [0, 1, 2].foldl (fun d t => sampleEngine.resume tree t d) d
  Board.complete (σ := signature) (sampleEngine.world tree (compileCount d)) 2 d

theorem eq_of_fault? {o : Option (Except Fault Product)} {f : Fault}
    (h : o.bind fault? = some f) : o = some (.error f) := by
  obtain ⟨o, rfl, ho⟩ := Option.bind_eq_some_iff.1 h
  cases o <;> cases ho
  rfl

/-- The compilation fails, the file is edited, and the template is asked for again: it fails
again, and the new text is not read. -/
theorem compilation_retried_malformed :
    let trees : FileTree → Prop := fun tree => tree = sampleTree "{% for %}"
    let later : FileTree → Prop := fun tree => tree = sampleTree "a"
    let d₁ := sampleEngine.resume (sampleTree "{% for %}") 1 malformedDesk
    let d₃ := sampleEngine.settle (sampleTree "a") (start (.template (.str "/v.html") true) d₁).2
    let o := Except.error (.view (.compiling "/v.html" sampleMalformation))
    sampleEngine.Reached trees d₁ ∧ sampleEngine.NextEnds later d₁ (.str "/v.html") d₃ o ∧
      ∃ s, Board.stored? (σ := signature) d₁ .file "/v.html" = some s ∧
        ∀ u, Board.place? (σ := signature) d₃ u = some (.file, "/v.html") → u ≤ s := by
  intro trees later d₁ d₃ o
  have htree : trees (sampleTree "{% for %}") := rfl
  have hd : sampleEngine.Reached trees malformedDesk := by
    have hstart : sampleEngine.Reached trees (start (.template (.str "/v.html") true) {}).2 :=
      .single (.start _)
    exact (happens_resumes hstart htree [0, 1, 2]).tail (.complete htree 2)
  have hs : Board.stored? (σ := signature) malformedDesk .template "/v.html" = some 1 := by
    decide +kernel
  have h : sampleEngine.Happens trees malformedDesk d₁ := .resume htree 1
  have hf : Board.outcome? (σ := signature) d₁ 1 = some o := eq_of_fault? (by decide +kernel)
  have hr : Relation.ReflTransGen (sampleEngine.Happens later)
      (start (.template (.str "/v.html") true) d₁).2 d₃ := happens_settle .refl rfl
  have ho : Board.outcome? (σ := signature) d₃ d₁.tasks.length = some o :=
    eq_of_fault? (by decide +kernel)
  have hend : sampleEngine.NextEnds later d₁ (.str "/v.html") d₃ o := by
    obtain ⟨task, ht, hto⟩ := Board.outcome?_eq_some.1 ho
    have hasked : (d₃.tasks[d₁.tasks.length]?.all fun x => !x.cancelRequested) = true := by
      decide +kernel
    rw [ht] at hasked
    exact ⟨hr, task, ht, by simpa using hasked, hto⟩
  obtain ⟨hgone, s, text, hst, -, hretried⟩ := compilation_retried hd hs h hf
  refine ⟨hd.tail h, hend, s, hst, ?_⟩
  obtain ⟨-, hnext⟩ := hretried d₁ .refl
  have hevents : ((Board.eventsSince (σ := signature) d₁ d₃).all fun
      | .cleared _ => false
      | _ => true) = true := by decide +kernel
  have hkept : .cleared .file ∉ Board.eventsSince (σ := signature) d₁ d₃ := fun hc =>
    absurd (List.all_eq_true.1 hevents _ hc) Bool.false_ne_true
  exact ((hnext later _ d₃ hgone rfl hr).failsAgain hkept o hend).2

/-- A template that did not compile is asked for again when its file says something that
compiles: it fails as before, and nothing is opened for it, while an engine whose caches are
empty gives the template. -/
theorem failed_compilation_keeps_text :
    let job := Job.template (.str "/v.html") true
    let first := sampleEngine.work (sampleTree "{% for %}") job {}
    let next := sampleEngine.work (sampleTree "a") job first.2
    let emptied := sampleEngine.work (sampleTree "a") job (reset first.2)
    fault? first.1 = some (.view (.compiling "/v.html" sampleMalformation)) ∧
      fault? next.1 = fault? first.1 ∧ openCount next.2 = openCount first.2 ∧
      fault? emptied.1 = none ∧ openCount emptied.2 = openCount first.2 + 1 := by
  decide +kernel

end CachedViews.Engine
