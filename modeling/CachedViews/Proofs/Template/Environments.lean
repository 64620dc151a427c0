import CachedViews.Proofs.Fields
import CachedViews.Proofs.Text.Shown
import CachedViews.Template.Environment

/-
# Which option sets share an environment

A compiler keeps an environment under the recognised options that are present and the shown forms
of their values. Different literal values have different shown forms, so the keys of two option
sets are equal exactly when the sets agree on the recognised options (`environmentKey_eq_iff`). Then
they also ask for the same settings (`settingsOf_congr`).

All environments kept are under different keys, and each has the settings that its key stands for
(`Environments.Sound`); a call keeps it so (`Environments.get_sound`). What a call returns is found
under its key from then on (`Environments.holds_returned`), so two calls return the same environment
exactly when their option sets agree (`Environments.shared_exactly`).

Key definitions: `Agree`, `LiteralOptions`, `Environments.returned`, `Environments.Sound`,
`Environments.Holds`.
Key theorems: `environmentKey_eq_iff`, `Environments.settings_of_holds`,
`Environments.shared_exactly`.
-/

namespace CachedViews.Template

/-- The options that a call is given. -/
abbrev OptionSet : Type := List (String × Value)

/-- Two option sets agree on the recognised options: on which are present, and on the kinds and
values of these. -/
def Agree (o o' : OptionSet) : Prop := ∀ name ∈ recognised, o.lookup name = o'.lookup name

/-- The recognised options that are present have literal values. -/
def LiteralOptions (o : OptionSet) : Prop :=
  ∀ name ∈ recognised, ∀ v, o.lookup name = some v → v.Literal

variable {o o' : OptionSet} {calls : List OptionSet}

theorem literalOptions_of_forall (h : ∀ f ∈ o, f.2.Literal) : LiteralOptions o :=
  fun _ _ _ hv => h _ (mem_of_lookup hv)

/-! ### Keys and settings -/

theorem lookup_environmentKey (o : OptionSet) {name : String} (hn : name ∈ recognised) :
    (environmentKey o).lookup name = (o.lookup name).map Value.shown := by
  have h := lookup_filterMap (fun (i j : String) (h : id i = id j) => h)
    (fun name => (o.lookup name).map Value.shown) recognised name
  simp only [Option.map_map, Function.comp_def, id_eq, if_pos hn] at h
  exact h

/-- **The keys are equal exactly when the option sets agree.** -/
theorem environmentKey_eq_iff (ho : LiteralOptions o) (ho' : LiteralOptions o') :
    environmentKey o = environmentKey o' ↔ Agree o o' := by
  refine ⟨fun h name hn => ?_, fun h => ?_⟩
  · have hshown : (o.lookup name).map Value.shown = (o'.lookup name).map Value.shown := by
      rw [← lookup_environmentKey o hn, ← lookup_environmentKey o' hn, h]
    cases hv : o.lookup name with
    | none =>
      rw [hv] at hshown
      exact (Option.map_eq_none_iff.1 hshown.symm).symm
    | some v =>
      rw [hv] at hshown
      obtain ⟨w, hw, hvw⟩ := Option.map_eq_some_iff.1 hshown.symm
      rw [hw, (Value.shown_inj (ho name hn v hv) (ho' name hn w hw)).1 hvw.symm]
  · exact List.filterMap_congr fun name hn => by rw [h name hn]

/-- Option sets that agree ask for the same settings. -/
theorem settingsOf_congr (h : Agree o o') : settingsOf o = settingsOf o' := by
  unfold settingsOf
  simp only [h "autoescape" (by decide), h "extensions" (by decide),
    h "keep_trailing_newline" (by decide), h "lstrip_blocks" (by decide),
    h "trim_blocks" (by decide)]

namespace Environments

variable {envs : Environments} {a b : Nat}

/-- What calls in sequence return: the number of an environment, or a fault. -/
def returned : Environments → List OptionSet → List (Except Fault Nat)
  | _, [] => []
  | envs, o :: calls => (envs.get o).1 :: returned (envs.get o).2 calls

/-- The environments after calls. -/
def after (envs : Environments) (calls : List OptionSet) : Environments :=
  calls.foldl (fun envs o => (envs.get o).2) envs

/-- The environment of that number was built for options like these. -/
def Holds (envs : Environments) (o : OptionSet) (a : Nat) : Prop :=
  ∃ st, envs.kept[a]? = some (environmentKey o, st)

/-- Environments are kept under different keys, each with the settings that its key stands for. -/
structure Sound (envs : Environments) : Prop where
  distinct : (envs.kept.map Prod.fst).Nodup
  built : ∀ e ∈ envs.kept, ∃ o, LiteralOptions o ∧ environmentKey o = e.1 ∧ settingsOf o = .ok e.2

/-! ### One call -/

/-- A call finds the environment of its key; or there is none, and it builds one; or it cannot. -/
theorem get_cases (envs : Environments) (o : OptionSet) :
    (∃ a, envs.Holds o a ∧ envs.get o = (.ok a, envs)) ∨
    environmentKey o ∉ envs.kept.map Prod.fst ∧
      ((∃ st, settingsOf o = .ok st ∧
          envs.get o = (.ok envs.kept.length, ⟨envs.kept ++ [(environmentKey o, st)]⟩)) ∨
        ∃ f, settingsOf o = .error f ∧ envs.get o = (.error f, envs)) := by
  cases hfind : envs.kept.findIdx? fun e => e.1 = environmentKey o with
  | some a =>
    refine .inl ⟨a, ?_, ?_⟩
    · obtain ⟨hlt, hkey, -⟩ := List.findIdx?_eq_some_iff_getElem.1 hfind
      refine ⟨envs.kept[a].2, ?_⟩
      rw [List.getElem?_eq_getElem hlt, ← of_decide_eq_true hkey]
    · unfold get
      simp only [hfind]
  | none =>
    refine .inr ⟨?_, ?_⟩
    · intro hmem
      obtain ⟨e, he, hkey⟩ := List.mem_map.1 hmem
      have hne := List.findIdx?_eq_none_iff.1 hfind e he
      simp [hkey] at hne
    · unfold get
      simp only [hfind]
      cases hs : settingsOf o with
      | ok st => exact .inl ⟨st, rfl, rfl⟩
      | error f => exact .inr ⟨f, rfl, rfl⟩

/-- A call keeps the environments sound. -/
theorem get_sound (h : envs.Sound) (ho : LiteralOptions o) : (envs.get o).2.Sound := by
  rcases envs.get_cases o with ⟨a, -, hget⟩ | ⟨hnew, ⟨st, hst, hget⟩ | ⟨f, -, hget⟩⟩
  · rwa [hget]
  · rw [hget]
    refine ⟨?_, fun e he => ?_⟩
    · rw [List.map_append]
      exact h.distinct.append (List.nodup_singleton _) (by simpa using hnew)
    · rcases List.mem_append.1 he with he | he
      · exact h.built e he
      · obtain rfl := List.mem_singleton.1 he
        exact ⟨o, ho, rfl, hst⟩
  · rwa [hget]

/-- A call leaves the environments where they are. -/
theorem Holds.get (h : envs.Holds o a) (o' : OptionSet) : (envs.get o').2.Holds o a := by
  rcases envs.get_cases o' with ⟨b, -, hget⟩ | ⟨-, ⟨st, -, hget⟩ | ⟨f, -, hget⟩⟩
  · rwa [hget]
  · rw [hget]
    obtain ⟨st', hst'⟩ := h
    have hlt := (List.getElem?_eq_some_iff.1 hst').1
    exact ⟨st', (List.getElem?_append_left hlt).trans hst'⟩
  · rwa [hget]

/-- What a call returns is there under its key. -/
theorem holds_get (h : (envs.get o).1 = .ok a) : (envs.get o).2.Holds o a := by
  rcases envs.get_cases o with ⟨b, hb, hget⟩ | ⟨-, ⟨st, -, hget⟩ | ⟨f, -, hget⟩⟩
  · rw [hget] at h ⊢
    obtain rfl := Except.ok.inj h
    exact hb
  · rw [hget] at h ⊢
    obtain rfl := Except.ok.inj h
    exact ⟨st, List.getElem?_concat_length⟩
  · rw [hget] at h
    cases h

/-- The environment of a call has the settings that its options ask for. -/
theorem settings_of_holds (h : envs.Sound) (ho : LiteralOptions o) {st : Settings}
    (hst : envs.kept[a]? = some (environmentKey o, st)) : settingsOf o = .ok st := by
  obtain ⟨o', ho', hkey, hbuilt⟩ := h.built _ (List.mem_of_getElem? hst)
  rw [settingsOf_congr ((environmentKey_eq_iff ho ho').1 hkey.symm), hbuilt]

/-- Environments that cannot be built are not kept, so the call fails and nothing changes. -/
theorem get_of_error (h : envs.Sound) (ho : LiteralOptions o) {f : Fault}
    (hf : settingsOf o = .error f) : envs.get o = (.error f, envs) := by
  rcases envs.get_cases o with ⟨a, ⟨st, hst⟩, -⟩ | ⟨-, ⟨st, hst, -⟩ | ⟨f', hf', hget⟩⟩
  · rw [settings_of_holds h ho hst] at hf
    cases hf
  · rw [hst] at hf
    cases hf
  · rw [hf] at hf'
    obtain rfl := Except.error.inj hf'
    exact hget

/-- Two numbers are equal exactly when they were given for option sets that agree. -/
theorem eq_iff_agree (h : envs.Sound) (ho : LiteralOptions o) (ho' : LiteralOptions o')
    (ha : envs.Holds o a) (hb : envs.Holds o' b) : a = b ↔ Agree o o' := by
  rw [← environmentKey_eq_iff ho ho']
  obtain ⟨st, hst⟩ := ha
  obtain ⟨st', hst'⟩ := hb
  have hkey : (envs.kept.map Prod.fst)[a]? = some (environmentKey o) := by
    rw [List.getElem?_map, hst]
    rfl
  have hkey' : (envs.kept.map Prod.fst)[b]? = some (environmentKey o') := by
    rw [List.getElem?_map, hst']
    rfl
  refine ⟨fun hab => ?_, fun hkeys => ?_⟩
  · rw [hab, hkey'] at hkey
    exact (Option.some_inj.1 hkey).symm
  · have hlt := (List.getElem?_eq_some_iff.1 hkey).1
    exact (List.getElem?_inj hlt h.distinct).1 (by rw [hkey, hkey', hkeys])

/-! ### Calls in sequence -/

theorem after_sound (h : envs.Sound) (hcalls : ∀ o ∈ calls, LiteralOptions o) :
    (envs.after calls).Sound := by
  induction calls generalizing envs with
  | nil => exact h
  | cons o calls ih =>
    exact ih (get_sound h (hcalls o List.mem_cons_self))
      fun o' ho' => hcalls o' (List.mem_cons_of_mem _ ho')

theorem Holds.after (h : envs.Holds o a) (calls : List OptionSet) :
    (envs.after calls).Holds o a := by
  induction calls generalizing envs with
  | nil => exact h
  | cons o' calls ih => exact ih (h.get o')

theorem returned_append (envs : Environments) (calls more : List OptionSet) :
    envs.returned (calls ++ more) = envs.returned calls ++ (envs.after calls).returned more := by
  induction calls generalizing envs with
  | nil => rfl
  | cons o calls ih => exact congrArg ((envs.get o).1 :: ·) (ih (envs.get o).2)

theorem length_returned (envs : Environments) (calls : List OptionSet) :
    (envs.returned calls).length = calls.length := by
  induction calls generalizing envs with
  | nil => rfl
  | cons o calls ih => exact congrArg (· + 1) (ih (envs.get o).2)

/-- What a call of a sequence returns is there under its key after all of them. -/
theorem holds_returned {i : Nat} (ho : calls[i]? = some o)
    (ha : (envs.returned calls)[i]? = some (.ok a)) : (envs.after calls).Holds o a := by
  induction calls generalizing envs i with
  | nil => cases ho
  | cons o' calls ih =>
    cases i with
    | zero =>
      obtain rfl := Option.some_inj.1 ho
      exact (holds_get (Option.some_inj.1 ha)).after calls
    | succ i => exact ih ho ha

/-- **Environments are shared exactly by option sets that agree.** In a sequence of calls of one
compiler, two calls that return get the same environment if and only if their option sets agree on
the recognised options; other options and the order of all of them have no influence. A call whose
environment cannot be built fails, and all other calls return what they return without it. -/
theorem shared_exactly (calls : List OptionSet) (hcalls : ∀ o ∈ calls, LiteralOptions o) :
    (∀ (i j : Nat) (o o' : OptionSet) (a b : Nat), calls[i]? = some o → calls[j]? = some o' →
      (returned {} calls)[i]? = some (Except.ok a) →
      (returned {} calls)[j]? = some (Except.ok b) → (a = b ↔ Agree o o')) ∧
    ∀ before o more f, calls = before ++ o :: more → settingsOf o = .error f →
      ∃ earlier later, earlier.length = before.length ∧
        returned {} calls = earlier ++ .error f :: later ∧
        returned {} (before ++ more) = earlier ++ later := by
  have hstart : Sound {} := ⟨List.nodup_nil, nofun⟩
  refine ⟨fun i j o o' a b ho ho' ha hb => ?_, fun before o more f hc hf => ?_⟩
  · exact eq_iff_agree (after_sound hstart hcalls) (hcalls o (List.mem_of_getElem? ho))
      (hcalls o' (List.mem_of_getElem? ho')) (holds_returned ho ha) (holds_returned ho' hb)
  · subst hc
    have hbefore : (after {} before).Sound :=
      after_sound hstart fun o' ho' => hcalls o' (List.mem_append_left _ ho')
    have hget := get_of_error hbefore (hcalls o (by simp)) hf
    refine ⟨returned {} before, (after {} before).returned more, length_returned _ _, ?_,
      returned_append _ _ _⟩
    rw [returned_append, returned, hget]

/-- Calls with a truth value, with the number that equals it, with an extension that does not exist,
and with the first value again beside an option that is not recognised. -/
def mixedCalls : List OptionSet :=
  [[("trim_blocks", .bool true)], [("trim_blocks", .int 1)],
   [("extensions", .list [.str "jinja2.ext.nope"])],
   [("compiler", .null), ("trim_blocks", .bool true)]]

/-- The first and the last get the same environment, the second another one, and the third none. -/
theorem shared_exactly_mixed :
    (∀ o ∈ mixedCalls, LiteralOptions o) ∧
      (returned {} mixedCalls).map Except.toOption = [some 0, some 1, none, some 0] ∧
      Agree [("trim_blocks", .bool true)] [("compiler", .null), ("trim_blocks", .bool true)] ∧
      ¬Agree [("trim_blocks", .bool true)] [("trim_blocks", .int 1)] ∧
      ∃ earlier later f, earlier.length = 2 ∧
        returned {} mixedCalls = earlier ++ .error f :: later ∧
        returned {} (mixedCalls.eraseIdx 2) = earlier ++ later := by
  have hliteral : ∀ o ∈ mixedCalls, LiteralOptions o := by
    intro o ho
    refine literalOptions_of_forall ?_
    simp only [mixedCalls, List.mem_cons, List.not_mem_nil, or_false] at ho
    rcases ho with rfl | rfl | rfl | rfl
    · simpa using Value.Literal.bool true
    · simpa using Value.Literal.int 1
    · simpa using Value.Literal.list (by simpa using Value.Literal.str _)
    · simpa using ⟨Value.Literal.null, Value.Literal.bool true⟩
  have hfirst : (returned {} mixedCalls)[0]? = some (Except.ok 0) := by rfl
  have hsecond : (returned {} mixedCalls)[1]? = some (Except.ok 1) := by rfl
  have hlast : (returned {} mixedCalls)[3]? = some (Except.ok 0) := by rfl
  obtain ⟨hshared, hunshared⟩ := shared_exactly mixedCalls hliteral
  refine ⟨hliteral, by rfl, (hshared 0 3 _ _ 0 0 rfl rfl hfirst hlast).1 rfl, fun h => ?_, ?_⟩
  · exact absurd ((hshared 0 1 _ _ 0 1 rfl rfl hfirst hsecond).2 h) (by decide)
  · obtain ⟨earlier, later, hlen, hwith, hwithout⟩ :=
      hunshared [[("trim_blocks", .bool true)], [("trim_blocks", .int 1)]]
        [("extensions", .list [.str "jinja2.ext.nope"])]
        [[("compiler", .null), ("trim_blocks", .bool true)]] _ rfl rfl
    exact ⟨earlier, later, _, hlen, hwith, hwithout⟩

end Environments

end CachedViews.Template
