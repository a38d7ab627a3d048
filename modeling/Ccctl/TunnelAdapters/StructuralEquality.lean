import Ccctl.TunnelAdapters.Policy
/-
  Ccctl.TunnelAdapters.StructuralEquality — what `deepEqual` and `removeFirstEqual` decide
  (`packages/tunnel-adapters/src/index.ts`).

  `SameValue` is equality of JSON values up to the order of an object's keys, at every depth:
  the same atoms, the same items in order, the same members in some order. On values whose
  objects list each key once, `deepEqual` is that relation (`deepEqual_iff`), and it is an
  equivalence. `removeFirstEqual` then takes out the first entry that is the same value as its
  target, or nothing (`structural_equality`).
-/

namespace Ccctl.TunnelAdapters

open Ccctl.Core Ccctl.Core.Json

/-- A JSON value: in each of its objects each key stands once. -/
structure JsonValue where
  value : Json
  unique : UniqueKeys value

/-- Equal, but for the order of the keys of their objects. -/
inductive SameValue : Json → Json → Prop
  | null : SameValue .null .null
  | bool (b : Bool) : SameValue (.bool b) (.bool b)
  | num (q : Rat) : SameValue (.num q) (.num q)
  | str (s : JsString) : SameValue (.str s) (.str s)
  | noItem : SameValue (.arr []) (.arr [])
  | item {v w : Json} {vs ws : List Json} :
      SameValue v w → SameValue (.arr vs) (.arr ws) → SameValue (.arr (v :: vs)) (.arr (w :: ws))
  | noMember : SameValue (.obj []) (.obj [])
  | member {key : JsString} {v w : Json} {fs gs : Fields} :
      SameValue v w → SameValue (.obj fs) (.obj gs) → SameValue (.obj ((key, v) :: fs)) (.obj ((key, w) :: gs))
  | reorder {fs gs gs' : Fields} : SameValue (.obj fs) (.obj gs) → gs.Perm gs' → SameValue (.obj fs) (.obj gs')

/-! ## The two walks -/

theorem everyItem_iff {a b : List Json} (h : a.length = b.length) :
    everyItem a b = true ↔ ∀ (i : Nat) (ha : i < a.length) (hb : i < b.length), deepEqual a[i] b[i] = true := by
  induction a generalizing b with
  | nil => simp [everyItem]
  | cons v vs ih =>
    cases b with
    | nil => cases h
    | cons w ws =>
      rw [everyItem, Bool.and_eq_true, ih (Nat.succ.inj h)]
      constructor
      · rintro ⟨hfirst, hrest⟩ i hv hw
        cases i with
        | zero => exact hfirst
        | succ i => exact hrest i (Nat.lt_of_succ_lt_succ hv) (Nat.lt_of_succ_lt_succ hw)
      · intro hall
        exact ⟨hall 0 (Nat.zero_lt_succ _) (Nat.zero_lt_succ _),
          fun i hv hw => hall (i + 1) (Nat.succ_lt_succ hv) (Nat.succ_lt_succ hw)⟩

theorem everyKey_iff {a b : Fields} :
    everyKey a b = true ↔ ∀ f ∈ a, ∃ w, (Json.obj b).get f.1 = some w ∧ deepEqual f.2 w = true := by
  induction a with
  | nil => simp [everyKey]
  | cons f fs ih =>
    obtain ⟨key, v⟩ := f
    rw [everyKey, Bool.and_eq_true, ih, List.forall_mem_cons]
    refine and_congr_left fun _ => ?_
    cases (Json.obj b).get key <;> simp

theorem deepEqual_arr {a b : List Json} :
    deepEqual (.arr a) (.arr b) = true ↔
      a.length = b.length ∧ ∀ (i : Nat) (ha : i < a.length) (hb : i < b.length), deepEqual a[i] b[i] = true := by
  rw [deepEqual, Bool.and_eq_true, decide_eq_true_eq]
  exact and_congr_right everyItem_iff

theorem deepEqual_obj {a b : Fields} :
    deepEqual (.obj a) (.obj b) = true ↔
      a.length = b.length ∧ ∀ f ∈ a, ∃ w, (Json.obj b).get f.1 = some w ∧ deepEqual f.2 w = true := by
  rw [deepEqual, Bool.and_eq_true, decide_eq_true_eq, everyKey_iff]

/-- As many keys on both sides, those of one among those of the other: the same keys. -/
theorem keys_of_deepEqual {a b : Fields} (ha : (a.map Prod.fst).Nodup) (h : deepEqual (.obj a) (.obj b) = true) :
    (a.map Prod.fst).Perm (b.map Prod.fst) := by
  obtain ⟨hlength, hevery⟩ := deepEqual_obj.mp h
  have hsub : a.map Prod.fst ⊆ b.map Prod.fst := by
    intro key hkey
    obtain ⟨f, hf, rfl⟩ := List.mem_map.mp hkey
    obtain ⟨w, hget, -⟩ := hevery f hf
    exact List.mem_map.mpr ⟨_, mem_of_get hget, rfl⟩
  exact (ha.subperm hsub).perm_of_length_le (by simp [hlength])

/-! ## An equivalence -/

theorem deepEqual_symm {a b : Json} (ha : UniqueKeys a) (hb : UniqueKeys b) (h : deepEqual a b = true) :
    deepEqual b a = true := by
  induction ha generalizing b with
  | null => cases b <;> first | rfl | cases h
  | bool x =>
    cases b with
    | bool y => simpa [deepEqual, eq_comm] using h
    | _ => cases h
  | num x =>
    cases b with
    | num y => simpa [deepEqual, eq_comm] using h
    | _ => cases h
  | str x =>
    cases b with
    | str y => simpa [deepEqual, eq_comm] using h
    | _ => cases h
  | @arr items _ ih =>
    cases b with
    | arr others =>
      cases hb with
      | arr hothers =>
        obtain ⟨hlength, hall⟩ := deepEqual_arr.mp h
        refine deepEqual_arr.mpr ⟨hlength.symm, fun i hw hv => ?_⟩
        exact ih _ (List.getElem_mem hv) (hothers _ (List.getElem_mem hw)) (hall i hv hw)
    | _ => cases h
  | @obj fields hnodup _ ih =>
    cases b with
    | obj others =>
      cases hb with
      | obj hothers hvalues =>
        obtain ⟨hlength, hevery⟩ := deepEqual_obj.mp h
        have hkeys := keys_of_deepEqual hnodup h
        refine deepEqual_obj.mpr ⟨hlength.symm, fun g hg => ?_⟩
        obtain ⟨f, hf, hname⟩ := List.mem_map.mp (hkeys.mem_iff.mpr (List.mem_map.mpr ⟨g, hg, rfl⟩))
        obtain ⟨w, hget, hequal⟩ := hevery f hf
        rw [hname, get_of_mem hothers hg, Option.some.injEq] at hget
        subst hget
        refine ⟨f.2, ?_, ih f hf (hvalues g hg) hequal⟩
        rw [← hname]
        exact get_of_mem hnodup hf
    | _ => cases h

theorem deepEqual_trans {a b c : Json} (ha : UniqueKeys a) (h : deepEqual a b = true) (h' : deepEqual b c = true) :
    deepEqual a c = true := by
  induction ha generalizing b c with
  | null =>
    cases b with
    | null => exact h'
    | _ => cases h
  | bool x =>
    cases b with
    | bool y =>
      obtain rfl : x = y := by simpa [deepEqual] using h
      exact h'
    | _ => cases h
  | num x =>
    cases b with
    | num y =>
      obtain rfl : x = y := by simpa [deepEqual] using h
      exact h'
    | _ => cases h
  | str x =>
    cases b with
    | str y =>
      obtain rfl : x = y := by simpa [deepEqual] using h
      exact h'
    | _ => cases h
  | @arr items _ ih =>
    cases b with
    | arr others =>
      cases c with
      | arr lasts =>
        obtain ⟨hlength, hall⟩ := deepEqual_arr.mp h
        obtain ⟨hlength', hall'⟩ := deepEqual_arr.mp h'
        refine deepEqual_arr.mpr ⟨hlength.trans hlength', fun i hv hx => ?_⟩
        have hw : i < others.length := hlength ▸ hv
        exact ih _ (List.getElem_mem hv) (hall i hv hw) (hall' i hw hx)
      | _ => cases h'
    | _ => cases h
  | @obj fields _ _ ih =>
    cases b with
    | obj others =>
      cases c with
      | obj lasts =>
        obtain ⟨hlength, hevery⟩ := deepEqual_obj.mp h
        obtain ⟨hlength', hevery'⟩ := deepEqual_obj.mp h'
        refine deepEqual_obj.mpr ⟨hlength.trans hlength', fun f hf => ?_⟩
        obtain ⟨w, hget, hequal⟩ := hevery f hf
        obtain ⟨x, hget', hequal'⟩ := hevery' _ (mem_of_get hget)
        exact ⟨x, hget', ih f hf hequal hequal'⟩
      | _ => cases h'
    | _ => cases h

/-! ## The relation -/

theorem SameValue.items {a b : List Json} (hlength : a.length = b.length)
    (h : ∀ (i : Nat) (ha : i < a.length) (hb : i < b.length), SameValue a[i] b[i]) :
    SameValue (.arr a) (.arr b) := by
  induction a generalizing b with
  | nil =>
    obtain rfl : b = [] := List.length_eq_zero_iff.mp hlength.symm
    exact .noItem
  | cons v vs ih =>
    cases b with
    | nil => cases hlength
    | cons w ws =>
      refine .item (h 0 (Nat.zero_lt_succ _) (Nat.zero_lt_succ _)) (ih (Nat.succ.inj hlength) fun i hv hw => ?_)
      exact h (i + 1) (Nat.succ_lt_succ hv) (Nat.succ_lt_succ hw)

/-- The members in one order, each with the value the other object has under its key. -/
theorem SameValue.members {fields : Fields} (value : JsString → Json) (h : ∀ f ∈ fields, SameValue f.2 (value f.1)) :
    SameValue (.obj fields) (.obj (fields.map fun f => (f.1, value f.1))) := by
  induction fields with
  | nil => exact .noMember
  | cons f rest ih =>
    exact .member (h f List.mem_cons_self) (ih fun g hg => h g (List.mem_cons_of_mem _ hg))

theorem sameValue_of_deepEqual {a b : Json} (ha : UniqueKeys a) (h : deepEqual a b = true) : SameValue a b := by
  induction ha generalizing b with
  | null =>
    cases b with
    | null => exact .null
    | _ => cases h
  | bool x =>
    cases b with
    | bool y =>
      obtain rfl : x = y := by simpa [deepEqual] using h
      exact .bool x
    | _ => cases h
  | num x =>
    cases b with
    | num y =>
      obtain rfl : x = y := by simpa [deepEqual] using h
      exact .num x
    | _ => cases h
  | str x =>
    cases b with
    | str y =>
      obtain rfl : x = y := by simpa [deepEqual] using h
      exact .str x
    | _ => cases h
  | @arr items _ ih =>
    cases b with
    | arr others =>
      obtain ⟨hlength, hall⟩ := deepEqual_arr.mp h
      exact .items hlength fun i hv hw => ih _ (List.getElem_mem hv) (hall i hv hw)
    | _ => cases h
  | @obj fields hnodup _ ih =>
    cases b with
    | obj others =>
      obtain ⟨hlength, hevery⟩ := deepEqual_obj.mp h
      -- the other object's members, in the order of this one's keys
      let arranged := fields.map fun f => (f.1, ((Json.obj others).get f.1).getD .null)
      have hsame : SameValue (.obj fields) (.obj arranged) := by
        refine .members (fun key => ((Json.obj others).get key).getD .null) fun f hf => ?_
        obtain ⟨w, hget, hequal⟩ := hevery f hf
        rw [hget]
        exact ih f hf hequal
      have hkeys : arranged.map Prod.fst = fields.map Prod.fst := by
        simp [arranged, List.map_map, Function.comp_def]
      have hsub : arranged ⊆ others := by
        intro g hg
        obtain ⟨f, hf, rfl⟩ := List.mem_map.mp hg
        obtain ⟨w, hget, -⟩ := hevery f hf
        rw [hget]
        exact mem_of_get hget
      have hdistinct : arranged.Nodup := List.Nodup.of_map Prod.fst (by rw [hkeys]; exact hnodup)
      have hperm : arranged.Perm others := (hdistinct.subperm hsub).perm_of_length_le (by simp [arranged, hlength])
      exact .reorder hsame hperm
    | _ => cases h

theorem uniqueKeys_perm {gs gs' : Fields} (hperm : gs.Perm gs') (h : UniqueKeys (.obj gs')) : UniqueKeys (.obj gs) := by
  cases h with
  | obj hnodup hvalues =>
    exact .obj ((hperm.map Prod.fst).nodup_iff.mpr hnodup) fun g hg => hvalues g (hperm.mem_iff.mp hg)

theorem deepEqual_of_sameValue {a b : Json} (h : SameValue a b) (ha : UniqueKeys a) (hb : UniqueKeys b) :
    deepEqual a b = true := by
  induction h with
  | null => rfl
  | bool x => simp [deepEqual]
  | num x => simp [deepEqual]
  | str x => simp [deepEqual]
  | noItem => rfl
  | @item v w vs ws _ _ ihv ihrest =>
    cases ha with
    | arr hvs =>
      cases hb with
      | arr hws =>
        have hfirst := ihv (hvs v List.mem_cons_self) (hws w List.mem_cons_self)
        obtain ⟨hlength, hall⟩ := deepEqual_arr.mp (ihrest
          (.arr fun x hx => hvs x (List.mem_cons_of_mem _ hx)) (.arr fun x hx => hws x (List.mem_cons_of_mem _ hx)))
        have hevery : everyItem (v :: vs) (w :: ws) = true := by
          rw [everyItem, hfirst, (everyItem_iff hlength).mpr hall]
          rfl
        rw [deepEqual, hevery, Bool.and_true, decide_eq_true_eq, List.length_cons, List.length_cons, hlength]
  | noMember => rfl
  | @member key v w fs gs _ _ ihv ihrest =>
    cases ha with
    | obj hfs hfvalues =>
      cases hb with
      | obj hgs hgvalues =>
        rw [List.map_cons, List.nodup_cons] at hfs hgs
        have hfirst := ihv (hfvalues (key, v) List.mem_cons_self) (hgvalues (key, w) List.mem_cons_self)
        obtain ⟨hlength, hevery⟩ := deepEqual_obj.mp (ihrest
          (.obj hfs.2 fun f hf => hfvalues f (List.mem_cons_of_mem _ hf))
          (.obj hgs.2 fun g hg => hgvalues g (List.mem_cons_of_mem _ hg)))
        refine deepEqual_obj.mpr ⟨by simp [hlength], List.forall_mem_cons.mpr ⟨⟨w, ?_, hfirst⟩, fun f hf => ?_⟩⟩
        · rw [get_cons, if_pos rfl]
        · have hne : key ≠ f.1 := by
            intro heq
            subst heq
            exact hfs.1 (List.mem_map.mpr ⟨f, hf, rfl⟩)
          obtain ⟨x, hget, hequal⟩ := hevery f hf
          exact ⟨x, by rw [get_cons, if_neg hne, hget], hequal⟩
  | @reorder fs gs gs' _ hperm ih =>
    obtain ⟨hlength, hevery⟩ := deepEqual_obj.mp (ih ha (uniqueKeys_perm hperm hb))
    cases hb with
    | obj hnodup _ =>
      refine deepEqual_obj.mpr ⟨hlength.trans hperm.length_eq, fun f hf => ?_⟩
      obtain ⟨x, hget, hequal⟩ := hevery f hf
      exact ⟨x, get_of_mem hnodup (hperm.mem_iff.mp (mem_of_get hget)), hequal⟩

theorem deepEqual_iff (a b : JsonValue) : deepEqual a.value b.value = true ↔ SameValue a.value b.value :=
  ⟨sameValue_of_deepEqual a.unique, fun h => deepEqual_of_sameValue h a.unique b.unique⟩

/-! ## What is removed -/

/-- `deepEqual` is equality up to the order of keys, an equivalence of all JSON values; and
    `removeFirstEqual` takes the first entry that is the target's value out of a list, and nothing else. -/
theorem structural_equality :
    (∀ a b : JsonValue, deepEqual a.value b.value = true ↔ SameValue a.value b.value) ∧
    Equivalence (fun a b : JsonValue => deepEqual a.value b.value = true) ∧
    ∀ (items : List JsonValue) (target : JsonValue),
      (∃ before entry after, items = before ++ entry :: after ∧ SameValue entry.value target.value ∧
        (∀ item ∈ before, ¬ SameValue item.value target.value) ∧
        removeFirstEqual (items.map JsonValue.value) target.value = ((before ++ after).map JsonValue.value, true)) ∨
      ((∀ item ∈ items, ¬ SameValue item.value target.value) ∧
        removeFirstEqual (items.map JsonValue.value) target.value = (items.map JsonValue.value, false)) := by
  refine ⟨deepEqual_iff, ⟨fun a => deepEqual_refl a.unique, fun {a b} h => deepEqual_symm a.unique b.unique h,
    fun {a b c} h h' => deepEqual_trans a.unique h h'⟩, fun items target => ?_⟩
  have hdiffer : ∀ item : JsonValue, deepEqual item.value target.value = false →
      ¬ SameValue item.value target.value := by
    intro item hitem hsame
    rw [(deepEqual_iff item target).mpr hsame] at hitem
    cases hitem
  rcases removeFirstEqual_cases (items.map JsonValue.value) target.value with
    ⟨before, entry, after, hitems, hentry, hbefore, hresult⟩ | ⟨hnone, hresult⟩
  · obtain ⟨before', tail, rfl, rfl, htail⟩ := List.map_eq_append_iff.mp hitems
    obtain ⟨entry', after', rfl, rfl, rfl⟩ := List.map_eq_cons_iff.mp htail
    refine .inl ⟨before', entry', after', rfl, (deepEqual_iff entry' target).mp hentry, fun item hitem => ?_, ?_⟩
    · exact hdiffer item (hbefore _ (List.mem_map.mpr ⟨item, hitem, rfl⟩))
    · rw [hresult, List.map_append]
  · exact .inr ⟨fun item hitem => hdiffer item (hnone _ (List.mem_map.mpr ⟨item, hitem, rfl⟩)), hresult⟩

end Ccctl.TunnelAdapters
