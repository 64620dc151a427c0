import CachedViews.Value
import Mathlib.Data.List.Nodup

/-
# Fields

Mappings are lists of fields, and what a name stands for is looked up in them: the first field
that has the name (`lookup_field`). A field that is put into a mapping takes the place of the
field of its name (`lookup_insertField`), and in one mapping on top of another the names stand
for what they stand for in the upper one, or else in the lower one (`lookup_overlay`). Entries are
put into a mapping with the same effect on its fields (`stringFields_onTop`).

Key theorems: `mem_of_lookup`, `lookup_of_mem`, `lookup_insertField`, `lookup_overlay`,
`stringFields_map`, `stringFields_onTop`.
-/

namespace CachedViews

variable {α β : Type} {name key : String} {v : α} {fields : List (String × α)}

/-! ### Looking up -/

theorem mem_of_lookup (h : fields.lookup key = some v) : (key, v) ∈ fields := by
  obtain ⟨before, after, rfl, -⟩ := List.lookup_eq_some_iff.1 h
  simp

theorem lookup_of_mem (hn : (fields.map Prod.fst).Nodup) (h : (key, v) ∈ fields) :
    fields.lookup key = some v := by
  induction fields with
  | nil => cases h
  | cons f fields ih =>
    obtain ⟨hf, hfields⟩ := List.nodup_cons.1 hn
    rcases List.mem_cons.1 h with rfl | h
    · exact List.lookup_cons_self
    · have hne : key ≠ f.1 := fun he => hf (List.mem_map.2 ⟨(key, v), h, he⟩)
      rw [List.lookup_cons, beq_false_of_ne hne]
      exact ih hfields h

theorem lookup_eq_none_of_not_mem (h : ∀ f ∈ fields, f.1 ≠ key) : fields.lookup key = none :=
  List.lookup_eq_none_iff.2 fun f hf => by simpa using (h f hf).symm

theorem lookup_field (name : String) (v : α) (fields : List (String × α)) (key : String) :
    ((name, v) :: fields).lookup key = if key = name then some v else fields.lookup key := by
  rw [List.lookup_cons]
  by_cases h : key = name
  · simp [h]
  · simp [h, beq_eq_false_iff_ne.2 h]

theorem lookup_map_snd (g : α → β) (fields : List (String × α)) (key : String) :
    (fields.map fun f => (f.1, g f.2)).lookup key = (fields.lookup key).map g := by
  induction fields with
  | nil => rfl
  | cons f fields ih =>
    rw [List.map_cons, List.lookup_cons, List.lookup_cons, ih]
    cases key == f.1 <;> rfl

theorem lookup_map_self (g : String → α) (names : List String) (key : String) :
    (names.map fun n => (n, g n)).lookup key = if key ∈ names then some (g key) else none := by
  induction names with
  | nil => rfl
  | cons n names ih =>
    rw [List.map_cons, lookup_field, ih]
    by_cases h : key = n
    · simp [h]
    · simp [h]

/-- Of fields with names of their own, each that is there is found under its name. -/
theorem lookup_filterMap {ι : Type} [BEq ι] [LawfulBEq ι] {names : ι → String}
    (hinj : ∀ i j, names i = names j → i = j) (value : ι → Option α) (is : List ι) (i : ι) :
    (is.filterMap fun j => (value j).map fun v => (names j, v)).lookup (names i) =
      if i ∈ is then value i else none := by
  induction is with
  | nil => rfl
  | cons j is ih =>
    rw [List.filterMap_cons]
    by_cases hij : i = j
    · subst hij
      rw [if_pos List.mem_cons_self]
      cases hv : value i with
      | some v => exact List.lookup_cons_self
      | none =>
        refine ih.trans ?_
        rw [hv, ite_self]
    · have hmem : i ∈ j :: is ↔ i ∈ is := by simp [hij]
      have hname : names i ≠ names j := fun he => hij (hinj i j he)
      rw [if_congr hmem rfl rfl, ← ih]
      cases value j with
      | some v => exact (lookup_field _ _ _ _).trans (if_neg hname)
      | none => rfl

/-- Fields of other names may be left out. -/
theorem lookup_filter (keep : String → Bool) (hk : keep key = true)
    (fields : List (String × α)) :
    (fields.filter fun f => keep f.1).lookup key = fields.lookup key := by
  induction fields with
  | nil => rfl
  | cons f fields ih =>
    obtain ⟨n, w⟩ := f
    by_cases hn : key = n
    · subst hn
      rw [List.filter_cons, if_pos hk, lookup_field, lookup_field, if_pos rfl, if_pos rfl]
    · rw [lookup_field, if_neg hn, ← ih, List.filter_cons]
      split
      · rw [lookup_field, if_neg hn]
      · rfl

/-! ### Putting a field in -/

theorem lookup_insertField (name : String) (v : α) (fields : List (String × α)) (key : String) :
    (Value.insertField name v fields).lookup key =
      if key = name then some v else fields.lookup key := by
  induction fields with
  | nil => exact lookup_field name v [] key
  | cons f fields ih =>
    obtain ⟨n, w⟩ := f
    unfold Value.insertField
    by_cases hn : n = name
    · subst hn
      rw [if_pos rfl, lookup_field, lookup_field]
      by_cases hk : key = n
      · rw [if_pos hk, if_pos hk]
      · rw [if_neg hk, if_neg hk, if_neg hk]
    · rw [if_neg hn, lookup_field, lookup_field, ih]
      by_cases hk : key = n
      · rw [if_pos hk, if_neg (hk ▸ hn), if_pos hk]
      · rw [if_neg hk, if_neg hk]

/-- A field that is left out may as well be changed. -/
theorem filter_insertField (keep : String → Bool) (hk : keep name = false) (v : α)
    (fields : List (String × α)) :
    (Value.insertField name v fields).filter (fun f => keep f.1) =
      fields.filter fun f => keep f.1 := by
  induction fields with
  | nil => simp [Value.insertField, hk]
  | cons f fields ih =>
    obtain ⟨n, w⟩ := f
    unfold Value.insertField
    by_cases hn : n = name
    · subst hn
      simp [hk]
    · rw [if_neg hn, List.filter_cons, List.filter_cons, ih]

theorem insertField_map (g : α → β) (name : String) (v : α) (fields : List (String × α)) :
    (Value.insertField name v fields).map (fun (n, x) => (n, g x)) =
      Value.insertField name (g v) (fields.map fun (n, x) => (n, g x)) := by
  induction fields with
  | nil => rfl
  | cons f fields ih =>
    obtain ⟨n, x⟩ := f
    by_cases h : n = name
    · simp [Value.insertField, h]
    · simp [Value.insertField, h, ih]

/-- A new name comes last. -/
theorem names_insertField (name : String) (v : α) (fields : List (String × α)) :
    (Value.insertField name v fields).map Prod.fst =
      if name ∈ fields.map Prod.fst then fields.map Prod.fst
      else fields.map Prod.fst ++ [name] := by
  induction fields with
  | nil => rfl
  | cons f fields ih =>
    obtain ⟨n, w⟩ := f
    unfold Value.insertField
    by_cases hn : n = name
    · simp [hn]
    · rw [if_neg hn, List.map_cons, ih, List.map_cons]
      by_cases hm : name ∈ fields.map Prod.fst
      · rw [if_pos hm, if_pos (List.mem_cons_of_mem _ hm)]
      · rw [if_neg hm, if_neg (by simp [Ne.symm hn, hm]), List.cons_append]

theorem mem_insertField {f : String × α} (h : f ∈ Value.insertField name v fields) :
    f.2 = v ∨ f ∈ fields := by
  induction fields with
  | nil => exact .inl (congrArg Prod.snd (List.mem_singleton.1 h))
  | cons g fields ih =>
    obtain ⟨n, w⟩ := g
    unfold Value.insertField at h
    split at h
    · rcases List.mem_cons.1 h with rfl | h
      · exact .inl rfl
      · exact .inr (List.mem_cons_of_mem _ h)
    · rcases List.mem_cons.1 h with rfl | h
      · exact .inr List.mem_cons_self
      · exact (ih h).imp_right (List.mem_cons_of_mem _)

/-! ### Mappings on top of others -/

section Overlay

variable {below above : List (String × α)}

/-- A name stands for the last field of the upper mapping that has it. -/
theorem lookup_overlay_last (below above : List (String × α)) (key : String) :
    (Value.overlay below above).lookup key = (above.reverse.lookup key).or (below.lookup key) := by
  induction above generalizing below with
  | nil => rfl
  | cons f above ih =>
    obtain ⟨n, v⟩ := f
    have hstep : Value.overlay below ((n, v) :: above) =
        Value.overlay (Value.insertField n v below) above := rfl
    rw [hstep, ih, lookup_insertField, List.reverse_cons, List.lookup_append, lookup_field,
      Option.or_assoc]
    by_cases hk : key = n
    · simp [hk]
    · simp [hk]

theorem lookup_reverse (hn : (above.map Prod.fst).Nodup) (key : String) :
    above.reverse.lookup key = above.lookup key := by
  have hreverse : (above.reverse.map Prod.fst).Nodup := by
    rw [List.map_reverse]
    exact List.nodup_reverse.2 hn
  refine Option.ext fun v => ⟨fun h => ?_, fun h => ?_⟩
  · exact lookup_of_mem hn (List.mem_reverse.1 (mem_of_lookup h))
  · exact lookup_of_mem hreverse (List.mem_reverse.2 (mem_of_lookup h))

theorem lookup_overlay (hn : (above.map Prod.fst).Nodup) (below : List (String × α))
    (key : String) :
    (Value.overlay below above).lookup key = (above.lookup key).or (below.lookup key) := by
  rw [lookup_overlay_last, lookup_reverse hn]

/-- The names of the lower mapping come first, and then each new name where it is met first. -/
theorem names_overlay (below above : List (String × α)) :
    (Value.overlay below above).map Prod.fst = below.map Prod.fst ++
      ((above.map Prod.fst).filter fun n => !(below.map Prod.fst).contains n).eraseDups := by
  induction above generalizing below with
  | nil => exact (List.append_nil _).symm
  | cons f above ih =>
    obtain ⟨n, v⟩ := f
    have hstep : Value.overlay below ((n, v) :: above) =
        Value.overlay (Value.insertField n v below) above := rfl
    rw [hstep, ih, names_insertField, List.map_cons]
    by_cases hn : n ∈ below.map Prod.fst
    · rw [if_pos hn, List.filter_cons_of_neg (by simpa using hn)]
    · rw [if_neg hn, List.filter_cons_of_pos (by simpa using hn), List.eraseDups_cons,
        List.filter_filter, List.append_assoc, List.singleton_append]
      have hkeep : (fun m => !(below.map Prod.fst ++ [n]).contains m) =
          fun m => !(m == n) && !(below.map Prod.fst).contains m := by
        funext m
        rw [List.contains_eq_mem, List.contains_eq_mem, Bool.eq_iff_iff]
        simp only [List.mem_append, List.mem_singleton, Bool.not_eq_true', Bool.and_eq_true,
          decide_eq_false_iff_not, beq_eq_false_iff_ne, not_or]
        exact and_comm
      rw [hkeep]

theorem mem_names_overlay :
    name ∈ (Value.overlay below above).map Prod.fst ↔
      name ∈ below.map Prod.fst ∨ name ∈ above.map Prod.fst := by
  rw [names_overlay, List.mem_append, List.mem_eraseDups, List.mem_filter]
  by_cases h : name ∈ below.map Prod.fst
  · simp only [h, true_or]
  · simp [h]

theorem nodup_names_insertField (h : (fields.map Prod.fst).Nodup) (name : String) (v : α) :
    ((Value.insertField name v fields).map Prod.fst).Nodup := by
  rw [names_insertField]
  split
  · exact h
  · rename_i hn
    rw [List.nodup_append]
    refine ⟨h, List.nodup_singleton name, fun m hm n hmem he => hn ?_⟩
    rwa [← List.mem_singleton.1 hmem, ← he]

theorem nodup_names_overlay (hb : (below.map Prod.fst).Nodup) (above : List (String × α)) :
    ((Value.overlay below above).map Prod.fst).Nodup := by
  induction above generalizing below with
  | nil => exact hb
  | cons f above ih => exact ih (nodup_names_insertField hb f.1 f.2)

theorem insertField_of_not_mem (h : name ∉ fields.map Prod.fst) (v : α) :
    Value.insertField name v fields = fields ++ [(name, v)] := by
  induction fields with
  | nil => rfl
  | cons f fields ih =>
    obtain ⟨n, x⟩ := f
    rw [List.map_cons, List.mem_cons, not_or] at h
    rw [Value.insertField, if_neg (Ne.symm h.1), ih h.2, List.cons_append]

/-- Where no name is met twice, the fields on top come behind those below. -/
theorem overlay_of_nodup (h : ((below ++ above).map Prod.fst).Nodup) :
    Value.overlay below above = below ++ above := by
  induction above generalizing below with
  | nil => exact (List.append_nil _).symm
  | cons f above ih =>
    have hsplit : below ++ f :: above = below ++ [f] ++ above := by simp
    rw [hsplit] at h ⊢
    have hnew : f.1 ∉ below.map Prod.fst := by
      rw [List.append_assoc, List.map_append] at h
      exact fun hmem => List.disjoint_of_nodup_append h hmem (by simp)
    rw [← ih h, ← insertField_of_not_mem hnew]
    rfl

theorem overlay_map (g : α → β) (below above : List (String × α)) :
    (Value.overlay below above).map (fun (n, x) => (n, g x)) =
      Value.overlay (below.map fun (n, x) => (n, g x)) (above.map fun (n, x) => (n, g x)) := by
  induction above generalizing below with
  | nil => rfl
  | cons f above ih =>
    obtain ⟨n, v⟩ := f
    exact (ih _).trans (by rw [insertField_map]; rfl)

/-- What is true of the values of two mappings is true of one on top of the other. -/
theorem forall_overlay {P : α → Prop} (hb : ∀ f ∈ below, P f.2) (ha : ∀ f ∈ above, P f.2) :
    ∀ f ∈ Value.overlay below above, P f.2 := by
  induction above generalizing below with
  | nil => exact hb
  | cons g above ih =>
    refine ih (fun f hf => ?_) fun f hf => ha f (List.mem_cons_of_mem _ hf)
    rcases mem_insertField hf with he | hf
    · rw [he]
      exact ha g List.mem_cons_self
    · exact hb f hf

end Overlay

/-! ### Fields of a value -/

theorem stringFields_map (fields : List (String × Value)) :
    Value.stringFields (fields.map fun (k, v) => (.str k, v)) = fields := by
  induction fields with
  | nil => rfl
  | cons f fields ih => rw [List.map_cons, Value.stringFields, ih]

/-! ### Entries as fields -/

section Entries

variable {k : Value} {s : String}

/-- Equal values have the same characters, if any. -/
theorem string?_of_same {a b : Value} (h : a.same b = true) : a.string? = b.string? := by
  cases a <;> cases b <;> simp_all [Value.same, Value.string?]

theorem same_of_string? {a b : Value} (ha : a.string? = some s) (hb : b.string? = some s) :
    a.same b = true := by
  cases a <;> cases ha <;> cases b <;> cases hb <;> simp [Value.same]

theorem stringFields_of_text (hk : k.string? = some s) (v : Value) (es : List (Value × Value)) :
    Value.stringFields ((k, v) :: es) = (s, v) :: Value.stringFields es := by
  cases k <;> cases hk <;> rfl

theorem stringFields_of_not_text (hk : k.string? = none) (v : Value) (es : List (Value × Value)) :
    Value.stringFields ((k, v) :: es) = Value.stringFields es := by
  cases k <;> first | rfl | cases hk

theorem stringFields_append (es more : List (Value × Value)) :
    Value.stringFields (es ++ more) = Value.stringFields es ++ Value.stringFields more := by
  induction es with
  | nil => rfl
  | cons e es ih =>
    obtain ⟨k, v⟩ := e
    cases hk : k.string? with
    | none =>
      rw [List.cons_append, stringFields_of_not_text hk, stringFields_of_not_text hk, ih]
    | some s =>
      rw [List.cons_append, stringFields_of_text hk, stringFields_of_text hk, ih,
        List.cons_append]

/-- An entry whose key is a text is put in as the field of that name. -/
theorem stringFields_insertEntry (hk : k.string? = some s) (v : Value) (es : List (Value × Value)) :
    Value.stringFields (Value.insertEntry k v es) =
      Value.insertField s v (Value.stringFields es) := by
  induction es with
  | nil => exact stringFields_of_text hk v []
  | cons e es ih =>
    obtain ⟨k', w⟩ := e
    unfold Value.insertEntry
    cases hk' : k'.string? with
    | none =>
      have hne : ¬k.same k' = true := fun h => by
        rw [string?_of_same h, hk'] at hk
        cases hk
      rw [if_neg hne, stringFields_of_not_text hk', stringFields_of_not_text hk', ih]
    | some t =>
      rw [stringFields_of_text hk', Value.insertField]
      by_cases ht : t = s
      · rw [if_pos ht, if_pos (same_of_string? hk (ht ▸ hk')), stringFields_of_text hk', ht]
      · have hne : ¬k.same k' = true := fun h => by
          rw [string?_of_same h, hk'] at hk
          exact ht (Option.some.inj hk)
        rw [if_neg ht, if_neg hne, stringFields_of_text hk', ih]

/-- An entry whose key is no text is no field. -/
theorem stringFields_insertEntry_of_not_text (hk : k.string? = none) (v : Value)
    (es : List (Value × Value)) :
    Value.stringFields (Value.insertEntry k v es) = Value.stringFields es := by
  induction es with
  | nil => exact stringFields_of_not_text hk v []
  | cons e es ih =>
    obtain ⟨k', w⟩ := e
    unfold Value.insertEntry
    by_cases h : k.same k' = true
    · have hk' : k'.string? = none := string?_of_same h ▸ hk
      rw [if_pos h, stringFields_of_not_text hk', stringFields_of_not_text hk']
    · rw [if_neg h]
      cases hk' : k'.string? with
      | none => rw [stringFields_of_not_text hk', stringFields_of_not_text hk', ih]
      | some t => rw [stringFields_of_text hk', stringFields_of_text hk', ih]

/-- The entry of a text is the field of that name. -/
theorem lookup_stringFields (es : List (Value × Value)) (name : String) :
    (Value.stringFields es).lookup name = Value.entry? name es := by
  fun_induction Value.stringFields es with
  | case1 => rfl
  | case2 t v es ih =>
    rw [lookup_field, ih, Value.entry?]
    simp only [eq_comm]
  | case3 t v es ih =>
    rw [lookup_field, ih, Value.entry?]
    simp only [eq_comm]
  | case4 es e hs hm ih => rw [ih, Value.entry?] <;> assumption

theorem entry?_insertEntry (hk : k.string? = some s) (v : Value) (es : List (Value × Value))
    (name : String) :
    Value.entry? name (Value.insertEntry k v es) =
      if name = s then some v else Value.entry? name es := by
  rw [← lookup_stringFields, stringFields_insertEntry hk, lookup_insertField, lookup_stringFields]

/-- Entries of other keys may be left out. -/
theorem entry?_filter {name : String} (keep : Value → Bool)
    (hkeep : ∀ k : Value, k.string? = some name → keep k = true) (es : List (Value × Value)) :
    Value.entry? name (es.filter fun e => keep e.1) = Value.entry? name es := by
  rw [← lookup_stringFields, ← lookup_stringFields]
  induction es with
  | nil => rfl
  | cons e es ih =>
    obtain ⟨k, v⟩ := e
    rw [List.filter_cons]
    cases hk : k.string? with
    | none =>
      rw [stringFields_of_not_text hk]
      split
      · rw [stringFields_of_not_text hk, ih]
      · exact ih
    | some s =>
      rw [stringFields_of_text hk, lookup_field]
      split
      · rw [stringFields_of_text hk, lookup_field, ih]
      · rename_i hdropped
        have hne : name ≠ s := fun he => hdropped (hkeep k (he ▸ hk))
        rw [if_neg hne, ih]

/-- An entry that is put in is left out again with all of its key. -/
theorem filter_insertEntry (keep : Value → Bool)
    (hsame : ∀ k k', k.same k' = true → keep k = keep k') (hk : keep k = false) (v : Value)
    (es : List (Value × Value)) :
    ((Value.insertEntry k v es).filter fun e => keep e.1) = es.filter fun e => keep e.1 := by
  induction es with
  | nil => simp [Value.insertEntry, hk]
  | cons e es ih =>
    obtain ⟨k', w⟩ := e
    unfold Value.insertEntry
    by_cases h : k.same k' = true
    · have hk' : keep k' = false := hsame k k' h ▸ hk
      rw [if_pos h, List.filter_cons_of_neg (by simpa using hk'),
        List.filter_cons_of_neg (by simpa using hk')]
    · rw [if_neg h, List.filter_cons, List.filter_cons, ih]

/-- What holds of all keys and of all values still does when an entry is put in. -/
theorem forall_insertEntry {P Q : Value → Prop} {k v : Value} {es : List (Value × Value)}
    (hk : P k) (hv : Q v) (h : ∀ e ∈ es, P e.1 ∧ Q e.2) :
    ∀ e ∈ Value.insertEntry k v es, P e.1 ∧ Q e.2 := by
  induction es with
  | nil => simpa [Value.insertEntry] using ⟨hk, hv⟩
  | cons e es ih =>
    obtain ⟨⟨hk', hw⟩, hrest⟩ := List.forall_mem_cons.1 h
    unfold Value.insertEntry
    split
    · exact List.forall_mem_cons.2 ⟨⟨hk', hv⟩, hrest⟩
    · exact List.forall_mem_cons.2 ⟨⟨hk', hw⟩, ih hrest⟩

theorem forall_onTop {P Q : Value → Prop} {es added : List (Value × Value)}
    (h : ∀ e ∈ es, P e.1 ∧ Q e.2) (hadded : ∀ e ∈ added, P e.1 ∧ Q e.2) :
    ∀ e ∈ Value.onTop es added, P e.1 ∧ Q e.2 := by
  induction added generalizing es with
  | nil => exact h
  | cons e added ih =>
    obtain ⟨⟨hk, hv⟩, hrest⟩ := List.forall_mem_cons.1 hadded
    exact ih (forall_insertEntry hk hv h) hrest

/-- The fields of entries with others on top of them. -/
theorem stringFields_onTop (es added : List (Value × Value)) :
    Value.stringFields (Value.onTop es added) =
      Value.overlay (Value.stringFields es) (Value.stringFields added) := by
  induction added generalizing es with
  | nil => rfl
  | cons e added ih =>
    obtain ⟨k, v⟩ := e
    refine (ih _).trans ?_
    cases hk : k.string? with
    | none => rw [stringFields_insertEntry_of_not_text hk, stringFields_of_not_text hk]
    | some s =>
      rw [stringFields_insertEntry hk, stringFields_of_text hk]
      rfl

/-- All keys of entries are texts. -/
def TextKeys (es : List (Value × Value)) : Prop := (es.all fun e => e.1.string?.isSome) = true

/-- What is put in brings its own key, or has a key that equals a present one. -/
theorem textKeys_map (fields : List (String × Value)) :
    TextKeys (fields.map fun (k, v) => (.str k, v)) := by
  simp [TextKeys, Value.string?]

theorem textKeys_insertEntry (k v : Value) {es : List (Value × Value)} :
    TextKeys (Value.insertEntry k v es) ↔ k.string?.isSome = true ∧ TextKeys es := by
  unfold TextKeys
  induction es with
  | nil => simp [Value.insertEntry]
  | cons e es ih =>
    unfold Value.insertEntry
    split
    · next hsame =>
      rw [List.all_cons, List.all_cons, string?_of_same hsame]
      simp only [Bool.and_eq_true, and_self_left]
    · simp only [List.all_cons, Bool.and_eq_true, ih]
      exact and_left_comm

theorem TextKeys.insertEntry {es : List (Value × Value)} (h : TextKeys es) (name : String)
    (v : Value) : TextKeys (Value.insertEntry (.str name) v es) :=
  (textKeys_insertEntry _ _).2 ⟨rfl, h⟩

theorem textKeys_onTop_iff {es added : List (Value × Value)} :
    TextKeys (Value.onTop es added) ↔ TextKeys es ∧ TextKeys added := by
  induction added generalizing es with
  | nil => exact (and_iff_left rfl).symm
  | cons e added ih =>
    have hsplit : TextKeys (e :: added) ↔ e.1.string?.isSome = true ∧ TextKeys added := by
      simp [TextKeys]
    refine ih.trans ?_
    rw [textKeys_insertEntry, hsplit, and_comm (a := e.1.string?.isSome = true), and_assoc]

end Entries

end CachedViews
