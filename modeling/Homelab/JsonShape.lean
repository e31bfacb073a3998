import Homelab.JsonParse

/-! What `JSON.parse` reads is a JSON value, so writing it and parsing it again gives it
back: a file that is read, changed and written keeps the values it had. -/
namespace Js

/-! ### The order of own properties -/

theorem keyBefore_asymm {a b : JsString} (h : keyBefore a b = true) : keyBefore b a = false := by
  unfold keyBefore at h ⊢
  cases ha : arrayIndex a with
  | none => simp [ha] at h
  | some i =>
    cases hb : arrayIndex b with
    | none => rfl
    | some j =>
      simp only [ha, hb, decide_eq_true_eq] at h
      exact decide_eq_false (by omega)

/-- A key that comes before another comes before all that the other does not follow. -/
theorem keyBefore_of_before {a b c : JsString} (hab : keyBefore a b = true)
    (hcb : keyBefore c b = false) : keyBefore c a = false := by
  unfold keyBefore at hab hcb ⊢
  cases ha : arrayIndex a with
  | none => simp [ha] at hab
  | some i =>
    cases hc : arrayIndex c with
    | none => rfl
    | some k =>
      cases hb : arrayIndex b with
      | none => simp [hc, hb] at hcb
      | some j =>
        simp only [ha, hb, decide_eq_true_eq] at hab
        simp only [hc, hb, decide_eq_false_iff_not] at hcb
        exact decide_eq_false (by omega)

theorem keys_setOwn {k l : JsString} {v : JsValue} {fs : Fields}
    (h : l ∈ (setOwn k v fs).map Prod.fst) : l = k ∨ l ∈ fs.map Prod.fst := by
  induction fs with
  | nil => exact Or.inl (List.mem_singleton.mp h)
  | cons f fs ih =>
    obtain ⟨k', v'⟩ := f
    rw [setOwn] at h
    split_ifs at h with heq hbefore
    · rcases List.mem_cons.mp h with h | h
      · exact Or.inl h
      · exact Or.inr (List.mem_cons_of_mem _ h)
    · rcases List.mem_cons.mp h with h | h
      · exact Or.inl h
      · exact Or.inr h
    · rcases List.mem_cons.mp h with h | h
      · exact Or.inr (h ▸ List.mem_cons_self ..)
      · rcases ih h with h | h
        · exact Or.inl h
        · exact Or.inr (List.mem_cons_of_mem _ h)

theorem mem_keys_setOwn {k l : JsString} {v : JsValue} {fs : Fields} (h : l = k ∨ l ∈ fs.map Prod.fst) :
    l ∈ (setOwn k v fs).map Prod.fst := by
  induction fs with
  | nil =>
    rcases h with rfl | h
    · exact List.mem_singleton_self _
    · cases h
  | cons f fs ih =>
    obtain ⟨k', v'⟩ := f
    rw [setOwn]
    split_ifs with heq hbefore
    · rcases h with rfl | h
      · exact List.mem_cons_self ..
      · rw [← heq]
        exact h
    · rcases h with rfl | h
      · exact List.mem_cons_self ..
      · exact List.mem_cons_of_mem _ h
    · rcases h with rfl | h
      · exact List.mem_cons_of_mem _ (ih (.inl rfl))
      · rcases List.mem_cons.mp h with rfl | h
        · exact List.mem_cons_self ..
        · exact List.mem_cons_of_mem _ (ih (.inr h))

theorem ownOrder_setOwn (k : JsString) (v : JsValue) {fs : Fields} (h : OwnOrder (fs.map Prod.fst)) :
    OwnOrder ((setOwn k v fs).map Prod.fst) := by
  induction fs with
  | nil => exact List.pairwise_singleton _ _
  | cons f fs ih =>
    obtain ⟨k', v'⟩ := f
    obtain ⟨hhead, htail⟩ := List.pairwise_cons.mp h
    rw [setOwn]
    split_ifs with heq hbefore
    · subst heq
      exact List.pairwise_cons.mpr ⟨hhead, htail⟩
    · refine List.pairwise_cons.mpr ⟨fun l hl => ?_, h⟩
      rcases List.mem_cons.mp hl with rfl | hl
      · exact ⟨fun he => heq he.symm, keyBefore_asymm hbefore⟩
      · -- what follows `k'` is not before it, so it is not before `k` either
        have hl' := hhead l hl
        refine ⟨?_, keyBefore_of_before hbefore hl'.2⟩
        rintro rfl
        exact absurd hbefore (by rw [hl'.2]; exact Bool.false_ne_true)
    · refine List.pairwise_cons.mpr ⟨fun l hl => ?_, ih htail⟩
      rcases keys_setOwn hl with rfl | hl
      · exact ⟨heq, Bool.eq_false_iff.mpr hbefore⟩
      · exact hhead l hl

theorem getOwn_setOwn (k : JsString) (v : JsValue) (fs : Fields) : getOwn k (setOwn k v fs) = v := by
  induction fs with
  | nil => rw [setOwn, getOwn, if_pos rfl]
  | cons f fs ih =>
    rw [setOwn]
    split_ifs with heq hbefore
    · rw [getOwn, if_pos rfl]
    · rw [getOwn, if_pos rfl]
    · rw [getOwn, if_neg heq]
      exact ih

/-- Setting a property to the value that it has changes nothing. -/
theorem setOwn_getOwn {k : JsString} {fs : Fields} (h : OwnOrder (fs.map Prod.fst))
    (hk : k ∈ fs.map Prod.fst) : setOwn k (getOwn k fs) fs = fs := by
  induction fs with
  | nil => exact absurd hk List.not_mem_nil
  | cons f fs ih =>
    obtain ⟨k', v'⟩ := f
    obtain ⟨hhead, htail⟩ := List.pairwise_cons.mp h
    rw [setOwn, getOwn]
    split_ifs with heq hbefore
    · rw [heq]
    · rcases List.mem_cons.mp hk with rfl | hk
      · exact absurd rfl heq
      · rw [(hhead k hk).2] at hbefore
        cases hbefore
    · rcases List.mem_cons.mp hk with rfl | hk
      · exact absurd rfl heq
      · rw [ih htail hk]

theorem fieldsJson_setOwn (k : JsString) {v : JsValue} (hv : v.isJson = true) {fs : Fields}
    (h : fieldsJson fs = true) : fieldsJson (setOwn k v fs) = true := by
  induction fs with
  | nil => simp only [setOwn, fieldsJson, hv, Bool.and_self]
  | cons f fs ih =>
    obtain ⟨k', v'⟩ := f
    simp only [fieldsJson, Bool.and_eq_true] at h
    rw [setOwn]
    split_ifs
    · simp only [fieldsJson, hv, h.2, Bool.and_self]
    · simp only [fieldsJson, hv, h.1, h.2, Bool.and_self]
    · simp only [fieldsJson, h.1, ih h.2, Bool.and_self]

/-- The object that `JSON.parse` builds from the members it has read. -/
theorem obj_ofEntries_isJson {entries : Fields} (h : fieldsJson entries = true) :
    (JsValue.obj (ofEntries entries)).isJson = true := by
  have key (todo done : Fields) (htodo : fieldsJson todo = true) (hdone : fieldsJson done = true)
      (ho : OwnOrder (done.map Prod.fst)) :
      (JsValue.obj (todo.foldl (fun fs e => setOwn e.1 e.2 fs) done)).isJson = true := by
    induction todo generalizing done with
    | nil =>
      rw [List.foldl_nil]
      simp only [JsValue.isJson, ho, hdone, decide_true, Bool.and_self]
    | cons e todo ih =>
      obtain ⟨k, v⟩ := e
      simp only [fieldsJson, Bool.and_eq_true] at htodo
      rw [List.foldl_cons]
      exact ih _ htodo.2 (fieldsJson_setOwn k htodo.1 hdone) (ownOrder_setOwn k v ho)
  exact key entries [] h rfl List.Pairwise.nil

/-! ### Parsing -/

theorem parseWord_isJson {word s rest : JsString} {v w : JsValue} (hv : v.isJson = true)
    (h : parseWord word v s = some (w, rest)) : w.isJson = true := by
  unfold parseWord at h
  split_ifs at h
  cases h
  exact hv

/-- What the three parsers read with so many nested calls left. -/
structure ParsesJson (fuel : ℕ) : Prop where
  value : ∀ {s rest v}, parseValue fuel s = some (v, rest) → v.isJson = true
  elements : ∀ {s rest vs}, parseElements fuel s = some (vs, rest) → allJson vs = true
  members : ∀ {s rest fs}, parseMembers fuel s = some (fs, rest) → fieldsJson fs = true

theorem parsesJson (fuel : ℕ) : ParsesJson fuel := by
  induction fuel with
  | zero => refine ⟨?_, ?_, ?_⟩ <;> (intro _ _ _ h; cases h)
  | succ fuel ih =>
    -- induction on the fuel: whatever the three parsers build comes from values that are JSON
    refine ⟨fun {s rest v} h => ?_, fun {s rest vs} h => ?_, fun {s rest fs} h => ?_⟩
    · simp only [parseValue, Option.bind_eq_bind, Option.bind_eq_some_iff, Prod.exists] at h
      obtain ⟨c, r, hc, h⟩ := h
      split_ifs at h
      · simp only [Option.bind_eq_some_iff, Prod.exists] at h
        obtain ⟨d, r', hd, h⟩ := h
        split_ifs at h
        · cases h
          rfl
        · simp only [Option.bind_eq_some_iff, Prod.exists] at h
          obtain ⟨entries, r2, hm, h⟩ := h
          cases h
          exact obj_ofEntries_isJson (ih.members hm)
      · simp only [Option.bind_eq_some_iff, Prod.exists] at h
        obtain ⟨d, r', hd, h⟩ := h
        split_ifs at h
        · cases h
          rfl
        · simp only [Option.bind_eq_some_iff, Prod.exists] at h
          obtain ⟨es, r2, hm, h⟩ := h
          cases h
          exact ih.elements hm
      · simp only [Option.bind_eq_some_iff, Prod.exists] at h
        obtain ⟨t, r', ht, h⟩ := h
        cases h
        rfl
      · exact parseWord_isJson rfl h
      · exact parseWord_isJson rfl h
      · exact parseWord_isJson rfl h
      · simp only [Option.bind_eq_some_iff, Prod.exists] at h
        obtain ⟨d, r', hd, h⟩ := h
        cases h
        rfl
    · simp only [parseElements, Option.bind_eq_bind, Option.bind_eq_some_iff, Prod.exists] at h
      obtain ⟨v, s1, hv, c, s2, hc, h⟩ := h
      have hval := ih.value hv
      split_ifs at h
      · simp only [Option.bind_eq_some_iff, Prod.exists] at h
        obtain ⟨vs', r, hvs, h⟩ := h
        cases h
        simp only [allJson, hval, ih.elements hvs, Bool.and_self]
      · cases h
        simp only [allJson, hval, Bool.and_self]
    · simp only [parseMembers, Option.bind_eq_bind, Option.bind_eq_some_iff, Prod.exists] at h
      obtain ⟨c, s0, hc, h⟩ := h
      split_ifs at h
      simp only [Option.bind_eq_some_iff, Prod.exists] at h
      obtain ⟨k, s1, hk, d, s2, hd, h⟩ := h
      split_ifs at h
      simp only [Option.bind_eq_some_iff, Prod.exists] at h
      obtain ⟨v, s3, hv, e, s4, he, h⟩ := h
      have hval := ih.value hv
      split_ifs at h
      · simp only [Option.bind_eq_some_iff, Prod.exists] at h
        obtain ⟨fs', r, hfs, h⟩ := h
        cases h
        simp only [fieldsJson, hval, ih.members hfs, Bool.and_self]
      · cases h
        simp only [fieldsJson, hval, Bool.and_self]

/-- What parses is a JSON value. -/
theorem jsonParse_isJson {s : JsString} {v : JsValue} (h : jsonParse s = some v) :
    v.isJson = true := by
  unfold jsonParse at h
  split at h
  · next w rest hparse =>
    split_ifs at h
    cases h
    exact (parsesJson _).value hparse
  · cases h

/-! ### Parts of a JSON value -/

theorem allJson_iff {vs : List JsValue} : allJson vs = true ↔ ∀ v ∈ vs, v.isJson = true := by
  induction vs with
  | nil => simp [allJson]
  | cons v vs ih => simp only [allJson, Bool.and_eq_true, ih, List.forall_mem_cons]

theorem getOwn_isJson {fs : Fields} (h : fieldsJson fs = true) (k : JsString) :
    getOwn k fs = .undefined ∨ (getOwn k fs).isJson = true := by
  induction fs with
  | nil => exact Or.inl rfl
  | cons f fs ih =>
    obtain ⟨k', v⟩ := f
    simp only [fieldsJson, Bool.and_eq_true] at h
    rw [getOwn]
    split_ifs
    · exact Or.inr h.1
    · exact ih h.2

/-- A property of a JSON value is missing or a JSON value. -/
theorem property_isJson {v : JsValue} (hv : v.isJson = true) (k : JsString) :
    property k v = .undefined ∨ (property k v).isJson = true := by
  cases v with
  | obj fs =>
    simp only [JsValue.isJson, Bool.and_eq_true] at hv
    exact getOwn_isJson hv.2 k
  | _ => exact Or.inl rfl

end Js
