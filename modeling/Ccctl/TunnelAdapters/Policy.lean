import Ccctl.Core.JsonReadBack
import Ccctl.Core.JsonReads
/-
  Ccctl.TunnelAdapters.Policy — what a tunnel writes to the tailnet's ACL policy
  (`packages/tunnel-adapters/src/index.ts`: `deepEqual`, `removeFirstEqual`, and the two
  read-modify-writes of `#provisionAcl` and `#revertAcl`).

  Either write leaves every key but `grants` where it was and adds or removes one entry equal
  to the grant (`provision_framed`, `revert_framed`). A revert undoes a provision to the letter
  where `grants` was absent or an array (`revert_provision`); over any other value it does not,
  the provision having counted the key as absent. What either writes reads back from its text
  when the policy did (`provision_wellFormed`, `revert_wellFormed`).
-/

namespace Ccctl.TunnelAdapters

open Ccctl.Core

/-! ## Structural equality -/

mutual
def deepEqual : Json → Json → Bool
  | .null, .null => true
  | .bool a, .bool b => a = b
  | .num a, .num b => a = b
  | .str a, .str b => a = b
  | .arr a, .arr b => a.length = b.length && everyItem a b
  | .obj a, .obj b => a.length = b.length && everyKey a b
  | _, _ => false

/-- `a.every((value, index) => deepEqual(value, b[index]))`. -/
def everyItem : List Json → List Json → Bool
  | [], _ => true
  | value :: rest, other :: others => deepEqual value other && everyItem rest others
  | _ :: _, [] => false

/-- `aKeys.every(…)`. -/
def everyKey : Json.Fields → Json.Fields → Bool
  | [], _ => true
  | (key, value) :: rest, b =>
    (match (Json.obj b).get key with
     | some other => deepEqual value other
     | none => false) && everyKey rest b
end

/-- The loop of `removeFirstEqual`, from where `removed` is as given. -/
def removeLoop (target : Json) : List Json → Bool → List Json × Bool
  | [], removed => ([], removed)
  | item :: rest, removed =>
    if !removed && deepEqual item target then removeLoop target rest true
    else (item :: (removeLoop target rest removed).1, (removeLoop target rest removed).2)

/-- `{ result, removed }`. -/
def removeFirstEqual (items : List Json) (target : Json) : List Json × Bool := removeLoop target items false

theorem get_of_mem {fields : Json.Fields} (h : (fields.map Prod.fst).Nodup) {f : JsString × Json} (hf : f ∈ fields) :
    (Json.obj fields).get f.1 = some f.2 := by
  induction fields with
  | nil => cases hf
  | cons g rest ih =>
    rw [List.map_cons, List.nodup_cons] at h
    obtain ⟨key, value⟩ := g
    rcases List.mem_cons.mp hf with rfl | hrest
    · rw [Json.get_cons, if_pos rfl]
    · have hne : key ≠ f.1 := by
        intro heq
        subst heq
        exact h.1 (List.mem_map.mpr ⟨f, hrest, rfl⟩)
      rw [Json.get_cons, if_neg hne, ih h.2 hrest]

theorem everyItem_refl {items : List Json} (h : ∀ v ∈ items, deepEqual v v = true) : everyItem items items = true := by
  induction items with
  | nil => rfl
  | cons v rest ih =>
    rw [everyItem, h v List.mem_cons_self, ih fun w hw => h w (List.mem_cons_of_mem _ hw)]
    rfl

theorem everyKey_refl {fields all : Json.Fields} (hall : (all.map Prod.fst).Nodup) (hsub : fields ⊆ all)
    (h : ∀ f ∈ fields, deepEqual f.2 f.2 = true) : everyKey fields all = true := by
  induction fields with
  | nil => rfl
  | cons f rest ih =>
    obtain ⟨key, value⟩ := f
    have hget := get_of_mem hall (hsub List.mem_cons_self)
    have hvalue := h (key, value) List.mem_cons_self
    have hrest := ih (fun f hf => hsub (List.mem_cons_of_mem _ hf)) fun f hf => h f (List.mem_cons_of_mem _ hf)
    rw [everyKey, hget, hrest, Bool.and_true]
    exact hvalue

theorem deepEqual_refl {v : Json} (h : Json.UniqueKeys v) : deepEqual v v = true := by
  induction h with
  | null => rfl
  | bool b => simp [deepEqual]
  | num q => simp [deepEqual]
  | str s => simp [deepEqual]
  | arr _ ih => simp [deepEqual, everyItem_refl ih]
  | obj hnodup _ ih => simp [deepEqual, everyKey_refl hnodup (List.Subset.refl _) ih]

theorem removeLoop_true (target : Json) (items : List Json) : removeLoop target items true = (items, true) := by
  induction items with
  | nil => rfl
  | cons item rest ih => simp [removeLoop, ih]

/-- The first entry equal to the target goes; with none, nothing does. -/
theorem removeFirstEqual_cases (items : List Json) (target : Json) :
    (∃ before entry after, items = before ++ entry :: after ∧ deepEqual entry target = true ∧
      (∀ item ∈ before, deepEqual item target = false) ∧
      removeFirstEqual items target = (before ++ after, true)) ∨
    ((∀ item ∈ items, deepEqual item target = false) ∧ removeFirstEqual items target = (items, false)) := by
  unfold removeFirstEqual
  induction items with
  | nil => exact .inr ⟨by simp, rfl⟩
  | cons item rest ih =>
    cases hitem : deepEqual item target with
    | true =>
      refine .inl ⟨[], item, rest, rfl, hitem, by simp, ?_⟩
      simp [removeLoop, hitem, removeLoop_true]
    | false =>
      have hloop : removeLoop target (item :: rest) false =
          (item :: (removeLoop target rest false).1, (removeLoop target rest false).2) := by
        simp [removeLoop, hitem]
      rcases ih with ⟨before, entry, after, hrest, hentry, hbefore, hresult⟩ | ⟨hnone, hresult⟩
      · refine .inl ⟨item :: before, entry, after, by rw [hrest, List.cons_append], hentry,
          List.forall_mem_cons.mpr ⟨hitem, hbefore⟩, ?_⟩
        rw [hloop, hresult, List.cons_append]
      · refine .inr ⟨List.forall_mem_cons.mpr ⟨hitem, hnone⟩, ?_⟩
        rw [hloop, hresult]

/-- What is removed is the first entry equal to the target. -/
theorem removeFirstEqual_removed {items : List Json} {target : Json} (h : (removeFirstEqual items target).2 = true) :
    ∃ before entry after, items = before ++ entry :: after ∧ deepEqual entry target = true ∧
      (removeFirstEqual items target).1 = before ++ after := by
  rcases removeFirstEqual_cases items target with ⟨before, entry, after, hitems, hentry, -, hresult⟩ | ⟨-, hresult⟩
  · exact ⟨before, entry, after, hitems, hentry, congrArg Prod.fst hresult⟩
  · rw [hresult] at h
    cases h

theorem removeFirstEqual_append {items : List Json} {target : Json} (h : ∀ item ∈ items, deepEqual item target = false)
    (htarget : deepEqual target target = true) : removeFirstEqual (items ++ [target]) target = (items, true) := by
  unfold removeFirstEqual
  induction items with
  | nil => simp [removeLoop, htarget]
  | cons item rest ih =>
    have hrest := ih fun w hw => h w (List.mem_cons_of_mem _ hw)
    simp [removeLoop, h item List.mem_cons_self, hrest]

/-! ## The policy -/

/-- A policy as an object: each key once. -/
structure AclPolicy where
  fields : Json.Fields
  nodup : (fields.map Prod.fst).Nodup

/-- One `grants[]` entry. -/
structure AclGrant where
  value : Json
  unique : Json.UniqueKeys value

/-- `policy.grants`. -/
def AclPolicy.grants (policy : AclPolicy) : Option Json := (Json.obj policy.fields).get (js "grants")

/-- `{ ...policy, grants }`. -/
def AclPolicy.setGrants (policy : AclPolicy) (grants : List Json) : AclPolicy :=
  ⟨Json.setProp policy.fields (js "grants") (.arr grants), Json.setProp_nodup policy.nodup _ _⟩

/-- `delete policy.grants`. -/
def AclPolicy.deleteGrants (policy : AclPolicy) : AclPolicy :=
  ⟨policy.fields.filter fun f => f.1 ≠ js "grants", policy.nodup.sublist (List.filter_sublist.map _)⟩

/-- The items, when `grants` is an array. -/
def AclPolicy.grantItems (policy : AclPolicy) : Option (List Json) := Json.asArray policy.grants

/-- What `#provisionAcl` saves; nothing when an equal grant is there. -/
def provisionedPolicy (grant : AclGrant) (policy : AclPolicy) : Option AclPolicy :=
  let currentGrants := policy.grantItems.getD []
  if currentGrants.any fun item => deepEqual item grant.value then none
  else some (policy.setGrants (currentGrants ++ [grant.value]))

/-- What `#revertAcl` saves; nothing when there is no equal grant. -/
def revertedPolicy (createdGrantsKey : Bool) (provisioned : AclGrant) (policy : AclPolicy) : Option AclPolicy :=
  match policy.grantItems with
  | none => none
  | some existing =>
    let parts := removeFirstEqual existing provisioned.value
    if parts.2 then
      if createdGrantsKey ∧ parts.1 = [] then some policy.deleteGrants else some (policy.setGrants parts.1)
    else none

/-- What its own text reads back as: finite numbers, and keys in the order an object lists them. -/
def AclPolicy.WellFormed (host : JsonHost) (policy : AclPolicy) : Prop := Json.WellFormed host (.obj policy.fields)

/-- Every key but `grants`, in order. -/
def AclPolicy.others (policy : AclPolicy) : Json.Fields := policy.fields.filter fun f => f.1 ≠ js "grants"

/-- A write moved nothing but one entry equal to the grant, in or out. -/
structure Framed (grant : AclGrant) (before after : AclPolicy) : Prop where
  others : after.others = before.others
  entries : ∃ front entry back, deepEqual entry grant.value = true ∧
    ((before.grantItems.getD [] = front ++ back ∧ after.grantItems.getD [] = front ++ entry :: back) ∨
      (before.grantItems.getD [] = front ++ entry :: back ∧ after.grantItems.getD [] = front ++ back))

theorem grantItems_set (policy : AclPolicy) (grants : List Json) :
    (policy.setGrants grants).grantItems = some grants := by
  rw [AclPolicy.grantItems, AclPolicy.grants, AclPolicy.setGrants, Json.get_setProp, if_pos rfl]
  rfl

theorem others_set (policy : AclPolicy) (grants : List Json) : (policy.setGrants grants).others = policy.others := by
  have hname : arrayIndex (js "grants") = none := by decide
  show (Json.setProp policy.fields (js "grants") (.arr grants)).filter (fun f => f.1 ≠ js "grants") = _
  unfold Json.setProp
  split
  · rw [List.filter_map, AclPolicy.others]
    have hsame : ((fun f : JsString × Json => decide (f.1 ≠ js "grants")) ∘
        fun f => if f.1 = js "grants" then (js "grants", Json.arr grants) else f) =
        fun f => decide (f.1 ≠ js "grants") := by
      funext f
      by_cases h : f.1 = js "grants" <;> simp [h]
    rw [hsame]
    refine (List.map_congr_left fun f hf => ?_).trans (List.map_id _)
    rw [if_neg (by simpa using (List.mem_filter.mp hf).2)]
    rfl
  · rw [hname]
    simp [AclPolicy.others]

theorem others_delete (policy : AclPolicy) : policy.deleteGrants.others = policy.others := by
  simp [AclPolicy.others, AclPolicy.deleteGrants]

theorem grantItems_delete (policy : AclPolicy) : policy.deleteGrants.grantItems = none := by
  have hnone : policy.deleteGrants.grants = none := by
    refine Json.get_none_of_not_mem fun h => ?_
    obtain ⟨f, hf, hkey⟩ := List.mem_map.mp h
    have hother := (List.mem_filter.mp hf).2
    simp [hkey] at hother
  rw [AclPolicy.grantItems, hnone]
  rfl

theorem provision_framed {grant : AclGrant} {policy next : AclPolicy} (h : provisionedPolicy grant policy = some next) :
    Framed grant policy next := by
  unfold provisionedPolicy at h
  dsimp only at h
  split at h
  · cases h
  · cases h
    refine ⟨others_set policy _, policy.grantItems.getD [], grant.value, [], deepEqual_refl grant.unique,
      Or.inl ⟨?_, ?_⟩⟩
    · rw [List.append_nil]
    · rw [grantItems_set, Option.getD_some]

theorem revert_framed {createdGrantsKey : Bool} {grant : AclGrant} {policy next : AclPolicy}
    (h : revertedPolicy createdGrantsKey grant policy = some next) : Framed grant policy next := by
  unfold revertedPolicy at h
  split at h
  · cases h
  · rename_i existing hexisting
    dsimp only at h
    split at h
    · rename_i hremoved
      obtain ⟨front, entry, back, hitems, hentry, hresult⟩ := removeFirstEqual_removed hremoved
      have hbefore : policy.grantItems.getD [] = front ++ entry :: back := by rw [hexisting, Option.getD_some, hitems]
      split at h
      · rename_i hempty
        cases h
        refine ⟨others_delete policy, front, entry, back, hentry, Or.inr ⟨hbefore, ?_⟩⟩
        rw [grantItems_delete, Option.getD_none, ← hresult, hempty.2]
      · cases h
        refine ⟨others_set policy _, front, entry, back, hentry, Or.inr ⟨hbefore, ?_⟩⟩
        rw [grantItems_set, Option.getD_some, hresult]
    · cases h

/-! ## A revert undoes a provision -/

theorem mem_of_get {fields : Json.Fields} {key : JsString} {value : Json} (h : (Json.obj fields).get key = some value) :
    (key, value) ∈ fields := by
  induction fields with
  | nil => cases h
  | cons f rest ih =>
    obtain ⟨name, w⟩ := f
    rw [Json.get_cons] at h
    by_cases hname : name = key
    · rw [if_pos hname] at h
      cases h
      rw [hname]
      exact List.mem_cons_self
    · rw [if_neg hname] at h
      exact List.mem_cons_of_mem _ (ih h)

theorem grants_of_items {policy : AclPolicy} {items : List Json} (h : policy.grantItems = some items) :
    policy.grants = some (.arr items) := by
  unfold AclPolicy.grantItems at h
  rcases hgrants : policy.grants with _ | v
  · rw [hgrants] at h
    cases h
  · rw [hgrants] at h
    cases v <;> cases h
    rfl

/-- Setting `grants` back to the array it was. -/
theorem setGrants_back {policy : AclPolicy} {items : List Json} (h : policy.grantItems = some items)
    (grants : List Json) :
    (policy.setGrants grants).setGrants items = policy := by
  obtain ⟨fields, hnodup⟩ := policy
  have hmem : (js "grants", Json.arr items) ∈ fields := mem_of_get (grants_of_items h)
  have hkey : js "grants" ∈ fields.map Prod.fst := List.mem_map.mpr ⟨_, hmem, rfl⟩
  have hset : ∀ value, Json.setProp fields (js "grants") value =
      fields.map fun f => if f.1 = js "grants" then (js "grants", value) else f := fun value => if_pos hkey
  have hkept : js "grants" ∈ (fields.map fun f => if f.1 = js "grants" then (js "grants", Json.arr grants) else f).map
      Prod.fst := by
    refine List.mem_map.mpr ⟨(js "grants", .arr grants), List.mem_map.mpr ⟨_, hmem, if_pos rfl⟩, rfl⟩
  have hback : Json.setProp (Json.setProp fields (js "grants") (.arr grants)) (js "grants") (.arr items) = fields := by
    rw [hset]
    unfold Json.setProp
    rw [if_pos hkept, List.map_map]
    refine (List.map_congr_left fun f hf => ?_).trans (List.map_id _)
    show (if (if f.1 = js "grants" then (js "grants", Json.arr grants) else f).1 = js "grants" then _ else _) = f
    by_cases hname : f.1 = js "grants"
    · -- keys are unique, so the entry under `grants` is the array
      have hvalue := get_of_mem hnodup hf
      rw [hname, get_of_mem hnodup hmem] at hvalue
      rw [if_pos hname, if_pos rfl]
      exact Prod.ext hname.symm (Option.some.inj hvalue)
    · rw [if_neg hname, if_neg hname]
  show AclPolicy.mk _ _ = AclPolicy.mk fields hnodup
  congr

/-- Deleting a `grants` that was not there. -/
theorem deleteGrants_back {policy : AclPolicy} (h : policy.grants = none) (grants : List Json) :
    (policy.setGrants grants).deleteGrants = policy := by
  obtain ⟨fields, hnodup⟩ := policy
  have hkey : ∀ f ∈ fields, f.1 ≠ js "grants" := by
    intro f hf hname
    have hvalue := get_of_mem hnodup hf
    rw [hname] at hvalue
    exact absurd (hvalue.symm.trans h) (by simp)
  have hnot : js "grants" ∉ fields.map Prod.fst := by
    intro hmem
    obtain ⟨f, hf, hname⟩ := List.mem_map.mp hmem
    exact hkey f hf hname
  have hname : arrayIndex (js "grants") = none := by decide
  have hback : (Json.setProp fields (js "grants") (.arr grants)).filter (fun f => f.1 ≠ js "grants") = fields := by
    unfold Json.setProp
    rw [if_neg hnot, hname]
    show List.filter _ (fields ++ [_]) = fields
    rw [List.filter_append, List.filter_eq_self.mpr fun f hf => by simpa using hkey f hf]
    simp
  show AclPolicy.mk _ _ = AclPolicy.mk fields hnodup
  congr

/-- `grants` is absent or an array. -/
def AclPolicy.wellShaped (policy : AclPolicy) : Prop := policy.grants = none ∨ policy.grantItems.isSome = true

/-- A provision writes only where no entry is equal to the grant. -/
theorem differ_of_provision {grant : AclGrant} {policy next : AclPolicy}
    (h : provisionedPolicy grant policy = some next) :
    ∀ item ∈ policy.grantItems.getD [], deepEqual item grant.value = false := by
  intro item hitem
  unfold provisionedPolicy at h
  dsimp only at h
  split at h
  · cases h
  · rename_i hnew
    by_contra hequal
    exact hnew (List.any_eq_true.mpr ⟨item, hitem, by simpa using hequal⟩)

theorem revert_provision {grant : AclGrant} {policy next : AclPolicy} (hshape : policy.wellShaped)
    (h : provisionedPolicy grant policy = some next) :
    revertedPolicy policy.grantItems.isNone grant next = some policy := by
  have hdiffer := differ_of_provision h
  unfold provisionedPolicy at h
  dsimp only at h
  split at h
  · cases h
  · cases h
    unfold revertedPolicy
    rw [grantItems_set]
    dsimp only
    rw [removeFirstEqual_append hdiffer (deepEqual_refl grant.unique), if_pos rfl]
    rcases hshape with habsent | harray
    · have hnone : policy.grantItems = none := by
        rw [AclPolicy.grantItems, habsent]
        rfl
      rw [hnone, Option.isNone_none, Option.getD_none, if_pos ⟨rfl, rfl⟩, deleteGrants_back habsent]
    · obtain ⟨items, hitems⟩ := Option.isSome_iff_exists.mp harray
      rw [hitems, Option.isNone_some, if_neg (by simp), Option.getD_some, setGrants_back hitems]

/-- A provision finds its own grant. -/
theorem provision_again {grant : AclGrant} {policy next : AclPolicy} (h : provisionedPolicy grant policy = some next) :
    provisionedPolicy grant next = none := by
  unfold provisionedPolicy at h
  dsimp only at h
  split at h
  · cases h
  · cases h
    unfold provisionedPolicy
    rw [grantItems_set]
    dsimp only
    have hequal := deepEqual_refl grant.unique
    rw [if_pos]
    simp [hequal]

theorem removeFirstEqual_none {items : List Json} {target : Json} (h : ∀ item ∈ items, deepEqual item target = false) :
    (removeFirstEqual items target).2 = false := by
  rcases removeFirstEqual_cases items target with ⟨before, entry, after, hitems, hentry, -, -⟩ | ⟨-, hresult⟩
  · have hmem : entry ∈ items := by rw [hitems]; simp
    rw [h entry hmem] at hentry
    cases hentry
  · exact congrArg Prod.snd hresult

/-- A policy a provision would write has nothing to revert. -/
theorem revert_unprovisioned {grant : AclGrant} {policy next : AclPolicy}
    (h : provisionedPolicy grant policy = some next) (createdGrantsKey : Bool) :
    revertedPolicy createdGrantsKey grant policy = none := by
  unfold revertedPolicy
  split
  · rfl
  · rename_i items hitems
    have hdiffer := differ_of_provision h
    rw [hitems, Option.getD_some] at hdiffer
    dsimp only
    rw [removeFirstEqual_none hdiffer, if_neg (by decide)]

/-! ## What is written reads back -/

section

variable {host : JsonHost} {grant : AclGrant} {policy next : AclPolicy}

theorem wellFormed_items (h : policy.WellFormed host) {items : List Json} (hitems : policy.grantItems = some items) :
    ∀ item ∈ items, item.WellFormed host := by
  have hgrants := mem_of_get (grants_of_items hitems)
  obtain _ | _ | _ | _ | _ | ⟨-, hfields⟩ := h
  obtain _ | _ | _ | _ | ⟨hall⟩ | _ := hfields _ hgrants
  exact hall

theorem wellFormed_set (h : policy.WellFormed host) {grants : List Json} (hgrants : ∀ v ∈ grants, v.WellFormed host) :
    (policy.setGrants grants).WellFormed host :=
  Json.WellFormed.set h (by decide) (.arr hgrants)

theorem provision_wellFormed (h : policy.WellFormed host) (hgrant : grant.value.WellFormed host)
    (hnext : provisionedPolicy grant policy = some next) : next.WellFormed host := by
  have hcurrent : ∀ item ∈ policy.grantItems.getD [], item.WellFormed host := by
    rcases hitems : policy.grantItems with _ | items
    · simp
    · exact wellFormed_items h hitems
  unfold provisionedPolicy at hnext
  dsimp only at hnext
  split at hnext
  · cases hnext
  · cases hnext
    refine wellFormed_set h fun item hitem => ?_
    rcases List.mem_append.mp hitem with hold | hours
    · exact hcurrent item hold
    · rw [List.mem_singleton.mp hours]
      exact hgrant

theorem revert_wellFormed (h : policy.WellFormed host) {createdGrantsKey : Bool}
    (hnext : revertedPolicy createdGrantsKey grant policy = some next) : next.WellFormed host := by
  unfold revertedPolicy at hnext
  split at hnext
  · cases hnext
  · rename_i existing hexisting
    dsimp only at hnext
    split at hnext
    · rename_i hremoved
      obtain ⟨front, entry, back, hitems, -, hresult⟩ := removeFirstEqual_removed hremoved
      have hall := wellFormed_items h hexisting
      split at hnext
      · cases hnext
        exact Json.WellFormed.part h List.filter_sublist
      · cases hnext
        refine wellFormed_set h fun item hitem => hall item ?_
        rw [hresult] at hitem
        rw [hitems]
        rcases List.mem_append.mp hitem with hfront | hback
        · exact List.mem_append_left _ hfront
        · exact List.mem_append_right _ (List.mem_cons_of_mem _ hback)
    · cases hnext

end

end Ccctl.TunnelAdapters
