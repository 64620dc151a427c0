import CachedViews.Proofs.Engine.Refinement

/-
# The caches describe one version of a file

A template comes to its cache by way of the text of its file, which has a cache of its own.
Uncached requests, failures, edits of the file and empty caches may come between the two,
and still a template that is stored is never there without the text that it was made of
(`Engine.caches_cohere`). As long as it is not there yet, its task has not begun, or it waits
for the text that is stored, or for one that has failed.

Key theorems: `Engine.Recorded.text_opened`, `Engine.caches_cohere`.
-/

namespace CachedViews.Engine

variable {e : Engine} {trees : FileTree → Prop} {d : Desk} {file : String} {t s : Nat}

/-- The text that a cache holds for a file was once in the file. -/
theorem Recorded.text_opened (hd : e.Recorded trees d) {r : Product}
    (hs : Board.stored? (σ := signature) d .file file = some s)
    (ho : Board.outcome? (σ := signature) d s = some (.ok r)) :
    ∃ tree text, trees tree ∧ tree.openText e.cwd file = .ok text ∧ r = .text text :=
  hd.lookedUp hs ho

/-- **The caches cohere.** Whatever happened to an engine, a template that is stored, when
its task has ended, is the compilation of exactly the text that is stored for its file, and
that text was once in the file. While its task has not ended, it has not begun, or it waits
for the text that is stored, or for one that has failed. -/
theorem caches_cohere (hd : e.Reached trees d)
    (hs : Board.stored? (σ := signature) d .template file = some t) :
    (∀ o, Board.outcome? (σ := signature) d t = some o →
      ∃ s text h, Board.stored? (σ := signature) d .file file = some s ∧
        Board.outcome? (σ := signature) d s = some (.ok (.text text)) ∧
        (∃ tree, trees tree ∧ tree.openText e.cwd file = .ok text) ∧
        o = .ok (.template h) ∧
        e.compiler.compile e.config.compilerOptions file text = .ok h.value) ∧
    ∃ task : Task signature, d.tasks[t]? = some task ∧ (task.phase.outcome? = none →
      task.phase = .fresh ∨ ∃ s, task.phase = .joining s (compileText file) ∧
        (Board.stored? (σ := signature) d .file file = some s ∨
          ∃ f, Board.outcome? (σ := signature) d s = some (.error f))) := by
  have hrec := hd.recorded
  obtain ⟨task, hx⟩ : ∃ task, d.tasks[t]? = some task :=
    ⟨_, List.getElem?_eq_getElem (hrec.upheld.orderly.lt hs)⟩
  have hb := hrec.coherent file t task hs hx
  refine ⟨fun o ho => ?_, task, hx, fun ho => ?_⟩
  · cases o with
    | error f => exact absurd ho (hrec.unfailed .template file t f hs)
    | ok r =>
      obtain ⟨y, hy, hyo⟩ := Board.outcome?_eq_some.1 ho
      obtain rfl := Option.some.inj (hx.symm.trans hy)
      rw [hyo] at hb
      obtain ⟨s, r', h, hst, hso, rfl, hc⟩ := hb
      obtain ⟨tree, text, htree, hopen, rfl⟩ := hrec.text_opened hst hso
      exact ⟨s, text, h, hst, hso, ⟨tree, htree, hopen⟩, rfl, hc⟩
  · -- a task that compiles for the cache waits for nothing but a text
    cases hp : task.phase with
    | fresh => exact .inl rfl
    | joining s next =>
      rw [hp] at hb
      obtain ⟨rfl, hst⟩ := hb
      exact .inr ⟨s, rfl, hst⟩
    | performing op next =>
      rw [hp] at hb
      exact hb.elim
    | gathering ts next =>
      rw [hp] at hb
      exact hb.elim
    | ended o =>
      rw [hp] at ho
      cases ho

/-- A view is rendered with its file at one text, the file is edited, and the template is
asked for without the caches: they go on to describe the text that they were filled with. -/
theorem caches_cohere_edited :
    let d := (sampleEngine.work (sampleTree "b") (.template (.str "/v.html") false) sampleDesk).2
    sampleEngine.Reached (fun tree => tree = sampleTree "a" ∨ tree = sampleTree "b") d ∧
      ∃ s text h, Board.stored? (σ := signature) d .file "/v.html" = some s ∧
        Board.outcome? (σ := signature) d s = some (.ok (.text text)) ∧
        (∃ tree, (tree = sampleTree "a" ∨ tree = sampleTree "b") ∧
          tree.openText "/" "/v.html" = .ok text) ∧
        cached? d .template "/v.html" = some (.template h) ∧
        sampleEngine.compiler.compile sampleEngine.config.compilerOptions "/v.html" text =
          .ok h.value := by
  intro d
  have hview : sampleEngine.Reached (fun tree => tree = sampleTree "a" ∨ tree = sampleTree "b")
      sampleDesk :=
    Reached.settle (.single (.start (.view (.str "/v.html") sampleOptions))) (.inl rfl)
  have hd : sampleEngine.Reached (fun tree => tree = sampleTree "a" ∨ tree = sampleTree "b") d :=
    Reached.settle (hview.tail (.start _)) (.inr rfl)
  refine ⟨hd, ?_⟩
  have hs : ∃ t, Board.stored? (σ := signature) d .template "/v.html" = some t :=
    Option.isSome_iff_exists.1 (by decide +kernel)
  obtain ⟨t, hs⟩ := hs
  have hcached : ∃ p, cached? d .template "/v.html" = some p :=
    Option.isSome_iff_exists.1 (by decide +kernel)
  obtain ⟨p, hp⟩ := hcached
  have ho : Board.outcome? (σ := signature) d t = some (.ok p) := by
    unfold cached? at hp
    rw [hs, Option.bind_some] at hp
    split at hp
    · rename_i q hq
      rw [hq, Option.some.inj hp]
    · cases hp
  obtain ⟨s, text, h, hst, hso, hopen, hph, hc⟩ := (caches_cohere hd hs).1 _ ho
  exact ⟨s, text, h, hst, hso, hopen, hp.trans (congrArg some (Except.ok.inj hph)), hc⟩

end CachedViews.Engine
