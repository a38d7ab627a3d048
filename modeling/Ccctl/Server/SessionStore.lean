import Ccctl.Core.JsonReads
/-
  Ccctl.Server.SessionStore — the session registry and the unread queue on disk
  (`packages/server/src/session-store-file.ts`: `FileSessionStore.load`,
  `FileSessionStore.save`, `persistableSnapshot`).

  Both directions go through `persistableSnapshot`, which drops the rows that are still
  registering and, when it dropped one, the unread entries that name no row left. It answers
  with the very snapshot when there was nothing to drop, so a row never comes out registering
  and a second pass changes nothing, but an entry that names no row stays in a snapshot
  without a registering row (`persistable_facts`).

  A load checks that the text is JSON, that it is an object, and its version, each with an
  error of the module's own; it does not look at the rest. What it reads as a snapshot then
  has the declared shape exactly when what the filter leaves of the text does
  (`store_boundary`); reading a part that is not there throws a `TypeError`, and so does
  writing a version that is an object with a `toString` of its own. How deep the engine's
  stack is, and the file system, are outside.
-/

namespace Ccctl.Server.SessionStore

open Ccctl.Core

def SESSION_STORE_SNAPSHOT_VERSION : Rat := 4

inductive StoreError where
  /-- The module's own error, which names the path. -/
  | branded (message : JsString)
  | typeError
  | io

/-! ## The language's own operations -/

def isNull : Json → Bool
  | .null => true
  | _ => false

/-- `Set.prototype.has`: two arrays or two objects are never the same one. -/
def sameValueZero : Option Json → Option Json → Bool
  | none, none => true
  | some .null, some .null => true
  | some (.bool a), some (.bool b) => a = b
  | some (.num a), some (.num b) => a = b
  | some (.str a), some (.str b) => a = b
  | _, _ => false

/-- The items of an array whose callback reads a property of each. -/
def filterable : Option Json → Except StoreError (List Json)
  | some (.arr items) => if items.any isNull then .error .typeError else .ok items
  | _ => .error .typeError

mutual
/-- `String(value)`; `none` throws. -/
def stringOf (host : JsonHost) : Json → Option JsString
  | .null => some (js "null")
  | .bool b => some (if b then js "true" else js "false")
  | .num q => some (host.numberText q)
  | .str s => some s
  | .arr items => joined host items
  | .obj fields => if (Json.obj fields).hasKey (js "toString") then none else some (js "[object Object]")

/-- `items.join()`, where `null` is empty. -/
def joined (host : JsonHost) : List Json → Option JsString
  | [] => some []
  | [item] => if isNull item then some [] else stringOf host item
  | item :: rest => do
    let head ← if isNull item then some [] else stringOf host item
    let tail ← joined host rest
    return head ++ js "," ++ tail
end

/-! ## The filter -/

def isRegistering (session : Json) : Bool := Json.isText (session.get (js "status")) (js "registering")

/-- `persisted.has(entry.sessionId)`. -/
def persistedHas (sessions : List Json) (entry : Json) : Bool :=
  sessions.any fun session => sameValueZero (session.get (js "id")) (entry.get (js "sessionId"))

def persistableSnapshot (snapshot : Json) : Except StoreError Json :=
  match filterable (snapshot.get (js "sessions")) with
  | .error e => .error e
  | .ok rows =>
    let sessions := rows.filter fun session => !isRegistering session
    if sessions.length = rows.length then .ok snapshot
    else
      match filterable (snapshot.get (js "unread")) with
      | .error e => .error e
      | .ok entries =>
        .ok (.obj (Json.setProp (Json.setProp snapshot.entries (js "sessions") (.arr sessions)) (js "unread")
          (.arr (entries.filter (persistedHas sessions)))))

/-! ## The store -/

structure FileSessionStore where
  filePath : JsString

/-- What `readFile` comes back with. -/
inductive FileRead where
  | enoent
  | failed
  | text (raw : JsString)

def isVersion : Option Json → Bool
  | some (.num q) => q = SESSION_STORE_SNAPSHOT_VERSION
  | _ => false

/-- `String(version)` of a property. -/
def versionText (host : JsonHost) : Option Json → Option JsString
  | none => some (js "undefined")
  | some version => stringOf host version

def isObjectType : Json → Bool
  | .obj _ | .arr _ => true
  | _ => false

section
variable (host : JsonHost)

def FileSessionStore.branded (store : FileSessionStore) (rest : JsString) : StoreError :=
  .branded (js "ccctl: the session-store snapshot at " ++ store.filePath ++ rest)

/-- `ok none` is `null`. -/
def FileSessionStore.load (store : FileSessionStore) : FileRead → Except StoreError (Option Json)
  | .enoent => .ok none
  | .failed => .error .io
  | .text raw =>
    match Json.parse host raw with
    | none => .error (store.branded (js " is not valid JSON — remove the file to start fresh."))
    | some parsed =>
      if !isObjectType parsed then
        .error (store.branded (js " is not a JSON object — remove the file to start fresh."))
      else if !isVersion (parsed.get (js "version")) then
        match versionText host (parsed.get (js "version")) with
        | none => .error .typeError
        | some version =>
          .error (store.branded (js " is version " ++ version ++ js ", but this build reads version " ++
            host.numberText SESSION_STORE_SNAPSHOT_VERSION ++ js " — remove the file to start fresh."))
      else (persistableSnapshot parsed).map some

/-- The text `save` writes. -/
def FileSessionStore.save (snapshot : Json) : Except StoreError JsString :=
  (persistableSnapshot snapshot).map fun s => Json.stringifyIndented host s ++ [0x0A]

end

/-! ## The declared shape -/

def isString (value : Option Json) : Bool := (Json.asString value).isSome

def isNumber : Option Json → Bool
  | some (.num _) => true
  | _ => false

def isBoolean : Option Json → Bool
  | some (.bool _) => true
  | _ => false

def SESSION_STATUSES : List JsString :=
  [js "registering", js "connecting", js "ready", js "busy", js "closed", js "errored"]

def isActivity : Option Json → Bool
  | some activity =>
    Json.isText (activity.get (js "kind")) (js "running") || Json.isText (activity.get (js "kind")) (js "idle") ||
    (Json.isText (activity.get (js "kind")) (js "requires_action") && isString (activity.get (js "detail")))
  | none => false

def isSession (session : Json) : Bool :=
  isString (session.get (js "id")) && SESSION_STATUSES.any (Json.isText (session.get (js "status"))) &&
  isActivity (session.get (js "activity")) && isBoolean (session.get (js "autoResolvesPermissions")) &&
  isNumber (session.get (js "createdAt")) && isNumber (session.get (js "lastActivityAt")) &&
  isNumber (session.get (js "lastHeartbeatAt"))

def isUnreadEntry (entry : Json) : Bool :=
  isString (entry.get (js "sessionId")) && isNumber (entry.get (js "eventId")) && isNumber (entry.get (js "at")) &&
  isActivity (entry.get (js "activity"))

def isArrayOf (p : Json → Bool) : Option Json → Bool
  | some (.arr items) => items.all p
  | _ => false

/-- `SessionStoreSnapshot`. -/
def isSnapshot (snapshot : Json) : Bool :=
  isNumber (snapshot.get (js "version")) && isArrayOf isSession (snapshot.get (js "sessions")) &&
  isArrayOf isUnreadEntry (snapshot.get (js "unread"))

/-! ## What the filter leaves -/

/-- Some row of the snapshot is still registering. -/
def HasRegistering (snapshot : Json) : Prop :=
  ∃ rows, snapshot.get (js "sessions") = some (.arr rows) ∧ ∃ row ∈ rows, isRegistering row = true

/-- Every unread entry names a session of the snapshot. -/
def NamesPresent (snapshot : Json) : Prop :=
  ∀ rows entries, snapshot.get (js "sessions") = some (.arr rows) → snapshot.get (js "unread") = some (.arr entries) →
    ∀ entry ∈ entries, persistedHas rows entry = true

theorem filterable_ok {value : Option Json} {items : List Json} :
    filterable value = .ok items ↔ value = some (.arr items) ∧ ∀ item ∈ items, isNull item = false := by
  cases value with
  | none => simp [filterable]
  | some v =>
    cases v with
    | arr xs =>
      simp only [filterable, Option.some.injEq, Json.arr.injEq]
      split
      · rename_i hnull
        refine iff_of_false (by simp) ?_
        intro hboth
        obtain ⟨rfl, hall⟩ := hboth
        obtain ⟨item, hitem, hn⟩ := List.any_eq_true.mp hnull
        rw [hall item hitem] at hn
        cases hn
      · rename_i hnull
        simp only [Bool.not_eq_true, List.any_eq_false] at hnull
        rw [Except.ok.injEq]
        constructor
        · intro heq
          subst heq
          exact ⟨rfl, fun item hitem => by simpa using hnull item hitem⟩
        · exact fun h => h.1
    | _ => simp [filterable]

theorem kept_all {rows : List Json} :
    (rows.filter fun session => !isRegistering session).length = rows.length ↔ ∀ row ∈ rows, isRegistering row = false := by
  rw [List.length_filter_eq_length_iff]
  simp

/-- The two ways a snapshot passes: nothing was registering and it stays as it is, or the rows
    and the entries are filtered and every other key stays. -/
theorem persistable_ok {snapshot s : Json} (h : persistableSnapshot snapshot = .ok s) :
    ∃ rows, filterable (snapshot.get (js "sessions")) = .ok rows ∧
      (((∀ row ∈ rows, isRegistering row = false) ∧ s = snapshot) ∨
       ((∃ row ∈ rows, isRegistering row = true) ∧ ∃ entries, filterable (snapshot.get (js "unread")) = .ok entries ∧
        ∀ wanted, s.get wanted =
          if wanted = js "unread" then
            some (.arr (entries.filter (persistedHas (rows.filter fun session => !isRegistering session))))
          else if wanted = js "sessions" then some (.arr (rows.filter fun session => !isRegistering session))
          else snapshot.get wanted)) := by
  unfold persistableSnapshot at h
  split at h
  · cases h
  · rename_i rows hrows
    refine ⟨rows, hrows, ?_⟩
    dsimp only at h
    split at h
    · rename_i hkept
      cases h
      exact Or.inl ⟨kept_all.mp hkept, rfl⟩
    · rename_i hkept
      rw [kept_all] at hkept
      split at h
      · cases h
      · rename_i entries hentries
        cases h
        refine Or.inr ⟨by simpa using hkept, entries, hentries, fun wanted => ?_⟩
        rw [Json.get_setProp, Json.get_setProp]
        have hsame : (Json.obj snapshot.entries).get wanted = snapshot.get wanted := rfl
        rw [hsame]

theorem persistable_version {snapshot s : Json} (h : persistableSnapshot snapshot = .ok s) :
    s.get (js "version") = snapshot.get (js "version") := by
  obtain ⟨rows, -, ⟨-, rfl⟩ | ⟨-, entries, -, hget⟩⟩ := persistable_ok h
  · rfl
  · rw [hget, if_neg (by decide), if_neg (by decide)]

theorem persistable_rows {snapshot s : Json} (h : persistableSnapshot snapshot = .ok s) :
    ∃ rows, filterable (s.get (js "sessions")) = .ok rows ∧ ∀ row ∈ rows, isRegistering row = false := by
  obtain ⟨rows, hrows, ⟨hnone, rfl⟩ | ⟨-, entries, -, hget⟩⟩ := persistable_ok h
  · exact ⟨rows, hrows, hnone⟩
  · have hnull := (filterable_ok.mp hrows).2
    refine ⟨rows.filter fun session => !isRegistering session, filterable_ok.mpr ⟨?_, fun row hrow => ?_⟩, fun row hrow => ?_⟩
    · rw [hget, if_neg (by decide), if_pos rfl]
    · exact hnull row (List.mem_filter.mp hrow).1
    · simpa using (List.mem_filter.mp hrow).2

/-- What passes has no registering row, passes again unchanged, and its entries name its rows
    exactly when a row was dropped or they did before. -/
theorem persistable_facts {snapshot s : Json} (h : persistableSnapshot snapshot = .ok s) :
    ¬ HasRegistering s ∧ persistableSnapshot s = .ok s ∧
      (NamesPresent s ↔ HasRegistering snapshot ∨ NamesPresent snapshot) := by
  obtain ⟨rows, hrows, hnone⟩ := persistable_rows h
  refine ⟨?_, ?_, ?_⟩
  · intro hex
    obtain ⟨rows', hget, row, hrow, hreg⟩ := hex
    obtain rfl : rows = rows' := by
      have := (filterable_ok.mp hrows).1.symm.trans hget
      exact Json.arr.inj (Option.some.inj this)
    rw [hnone row hrow] at hreg
    cases hreg
  · rw [persistableSnapshot, hrows]
    exact if_pos (kept_all.mpr hnone)
  · obtain ⟨before, hbefore, ⟨hno, rfl⟩ | ⟨⟨row, hrow, hreg⟩, entries, -, hget⟩⟩ := persistable_ok h
    · refine (or_iff_right ?_).symm
      intro hex
      obtain ⟨rows', hget, row, hrow, hreg⟩ := hex
      obtain rfl : before = rows' := by
        have := (filterable_ok.mp hbefore).1.symm.trans hget
        exact Json.arr.inj (Option.some.inj this)
      rw [hno row hrow] at hreg
      cases hreg
    · refine iff_of_true (fun rows' entries' hs hu entry hentry => ?_)
        (Or.inl ⟨before, (filterable_ok.mp hbefore).1, row, hrow, hreg⟩)
      rw [hget, if_neg (by decide), if_pos rfl] at hs
      rw [hget, if_pos rfl] at hu
      obtain rfl := Json.arr.inj (Option.some.inj hs)
      obtain rfl := Json.arr.inj (Option.some.inj hu)
      exact (List.mem_filter.mp hentry).2

/-! ## The declared shape through the filter -/

theorem isArrayOf_eq {p : Json → Bool} {value : Option Json} :
    isArrayOf p value = true ↔ ∃ items, value = some (.arr items) ∧ ∀ item ∈ items, p item = true := by
  cases value with
  | none => simp [isArrayOf]
  | some v =>
    cases v with
    | arr items => simp [isArrayOf, List.all_eq_true]
    | _ => simp [isArrayOf]

theorem not_null_of_session {row : Json} (h : isSession row = true) : isNull row = false := by
  cases row with
  | null => exact absurd h (by decide)
  | _ => rfl

theorem not_null_of_registering {row : Json} (h : isRegistering row = true) : isNull row = false := by
  cases row with
  | null => exact absurd h (by decide)
  | _ => rfl

theorem not_null_of_entry {entry : Json} (h : isUnreadEntry entry = true) : isNull entry = false := by
  cases entry with
  | null => exact absurd h (by decide)
  | _ => rfl

/-- What the filter leaves of the value has the declared shape: what it does not look at, and
    what it does not drop. -/
def LoadsWell (parsed : Json) : Prop :=
  ∃ rows entries, parsed.get (js "sessions") = some (.arr rows) ∧ parsed.get (js "unread") = some (.arr entries) ∧
    (∀ row ∈ rows, isRegistering row = true ∨ isSession row = true) ∧
    ∀ entry ∈ entries, isUnreadEntry entry = true ∨
      (isNull entry = false ∧ HasRegistering parsed ∧
        persistedHas (rows.filter fun session => !isRegistering session) entry = false)

theorem isVersion_number {value : Option Json} (h : isVersion value = true) : isNumber value = true := by
  unfold isVersion at h
  split at h
  · rfl
  · cases h

theorem registering_iff {parsed : Json} {rows : List Json} (h : parsed.get (js "sessions") = some (.arr rows)) :
    HasRegistering parsed ↔ ∃ row ∈ rows, isRegistering row = true := by
  constructor
  · intro hex
    obtain ⟨rows', hrows', hrow⟩ := hex
    rw [h] at hrows'
    cases hrows'
    exact hrow
  · exact fun hrow => ⟨rows, h, hrow⟩

theorem loadsWell_of_ok {parsed s : Json} (hs : persistableSnapshot parsed = .ok s) (hshape : isSnapshot s = true) :
    LoadsWell parsed := by
  simp only [isSnapshot, Bool.and_eq_true, isArrayOf_eq] at hshape
  obtain ⟨⟨-, rows', hrows', hsessions⟩, entries', hentries', hunread⟩ := hshape
  obtain ⟨rows, hrows, ⟨hno, rfl⟩ | ⟨hreg, entries, hentries, hget⟩⟩ := persistable_ok hs
  · exact ⟨rows', entries', hrows', hentries', fun row hrow => Or.inr (hsessions row hrow),
      fun entry hentry => Or.inl (hunread entry hentry)⟩
  · have harr := (filterable_ok.mp hrows).1
    have hwell := filterable_ok.mp hentries
    rw [hget, if_neg (by decide), if_pos rfl] at hrows'
    rw [hget, if_pos rfl] at hentries'
    cases hrows'
    cases hentries'
    refine ⟨rows, entries, harr, hwell.1, fun row hrow => ?_, fun entry hentry => ?_⟩
    · by_cases hr : isRegistering row = true
      · exact Or.inl hr
      · exact Or.inr (hsessions row (List.mem_filter.mpr ⟨hrow, by simpa using hr⟩))
    · by_cases hp : persistedHas (rows.filter fun session => !isRegistering session) entry = true
      · exact Or.inl (hunread entry (List.mem_filter.mpr ⟨hentry, hp⟩))
      · exact Or.inr ⟨hwell.2 entry hentry, (registering_iff harr).mpr hreg, by simpa using hp⟩

theorem LoadsWell.loads {parsed : Json} (h : LoadsWell parsed) (hversion : isNumber (parsed.get (js "version")) = true) :
    ∃ s, persistableSnapshot parsed = .ok s ∧ isSnapshot s = true := by
  obtain ⟨rows, entries, hsessions, hunread, hrows, hentries⟩ := h
  have hfilter : filterable (parsed.get (js "sessions")) = .ok rows :=
    filterable_ok.mpr ⟨hsessions, fun row hrow => (hrows row hrow).elim not_null_of_registering not_null_of_session⟩
  have hfilterUnread : filterable (parsed.get (js "unread")) = .ok entries :=
    filterable_ok.mpr ⟨hunread, fun entry hentry => (hentries entry hentry).elim not_null_of_entry fun h => h.1⟩
  by_cases hreg : HasRegistering parsed
  · have hdrop : ¬ (rows.filter fun session => !isRegistering session).length = rows.length := by
      rw [kept_all]
      intro hno
      obtain ⟨row, hrow, hr⟩ := (registering_iff hsessions).mp hreg
      rw [hno row hrow] at hr
      cases hr
    have hok : persistableSnapshot parsed = .ok (.obj (Json.setProp (Json.setProp parsed.entries (js "sessions")
        (.arr (rows.filter fun session => !isRegistering session))) (js "unread")
        (.arr (entries.filter (persistedHas (rows.filter fun session => !isRegistering session)))))) := by
      unfold persistableSnapshot
      rw [hfilter]
      dsimp only
      rw [if_neg hdrop, hfilterUnread]
    refine ⟨_, hok, ?_⟩
    have hkeep : ∀ key, (Json.obj parsed.entries).get key = parsed.get key := fun _ => rfl
    simp only [isSnapshot, Bool.and_eq_true, isArrayOf_eq]
    refine ⟨⟨?_, rows.filter fun session => !isRegistering session, ?_, fun row hrow => ?_⟩,
      entries.filter (persistedHas (rows.filter fun session => !isRegistering session)), ?_, fun entry hentry => ?_⟩
    · rw [Json.get_setProp, if_neg (by decide), Json.get_setProp, if_neg (by decide), hkeep]
      exact hversion
    · rw [Json.get_setProp, if_neg (by decide), Json.get_setProp, if_pos rfl]
    · obtain ⟨hmem, hnot⟩ := List.mem_filter.mp hrow
      exact (hrows row hmem).resolve_left (by simpa using hnot)
    · rw [Json.get_setProp, if_pos rfl]
    · obtain ⟨hmem, hhas⟩ := List.mem_filter.mp hentry
      refine (hentries entry hmem).resolve_right fun h => ?_
      rw [h.2.2] at hhas
      cases hhas
  · have hno : ∀ row ∈ rows, isRegistering row = false := by
      intro row hrow
      by_contra h
      exact hreg ((registering_iff hsessions).mpr ⟨row, hrow, by simpa using h⟩)
    refine ⟨parsed, ?_, ?_⟩
    · unfold persistableSnapshot
      rw [hfilter]
      exact if_pos (kept_all.mpr hno)
    · simp only [isSnapshot, Bool.and_eq_true, isArrayOf_eq]
      refine ⟨⟨hversion, rows, hsessions, fun row hrow => ?_⟩, entries, hunread, fun entry hentry => ?_⟩
      · exact (hrows row hrow).resolve_left (by simp [hno row hrow])
      · exact (hentries entry hentry).resolve_right fun h => hreg h.2.1

theorem loadsWell_iff {parsed : Json} (hversion : isNumber (parsed.get (js "version")) = true) :
    (∃ s, persistableSnapshot parsed = .ok s ∧ isSnapshot s = true) ↔ LoadsWell parsed :=
  ⟨fun ⟨_, hs, hshape⟩ => loadsWell_of_ok hs hshape, fun h => h.loads hversion⟩

/-- A snapshot of the declared shape passes, and keeps it. -/
theorem persistable_snapshot {snapshot : Json} (h : isSnapshot snapshot = true) :
    ∃ s, persistableSnapshot snapshot = .ok s ∧ isSnapshot s = true := by
  simp only [isSnapshot, Bool.and_eq_true, isArrayOf_eq] at h
  obtain ⟨⟨hversion, rows, hsessions, hrows⟩, entries, hunread, hentries⟩ := h
  exact (loadsWell_iff hversion).mpr ⟨rows, entries, hsessions, hunread, fun row hrow => Or.inr (hrows row hrow),
    fun entry hentry => Or.inl (hentries entry hentry)⟩

/-! ## A load -/

/-- What a load is declared to yield: nothing, a snapshot of the declared shape, or the
    module's own error. -/
def Declared : Except StoreError (Option Json) → Prop
  | .ok none => True
  | .ok (some s) => isSnapshot s = true
  | .error (.branded _) => True
  | .error _ => False

section
variable (host : JsonHost) (store : FileSessionStore)

/-- What a file has to hold for that: no JSON, no object, another version that has a text, or
    this version over parts that are there. -/
def Loadable (raw : JsString) : Prop :=
  ∀ parsed, Json.parse host raw = some parsed → isObjectType parsed = true →
    if isVersion (parsed.get (js "version")) then LoadsWell parsed
    else (versionText host (parsed.get (js "version"))).isSome = true

theorem load_version {raw : JsString} {parsed : Json} (hparse : Json.parse host raw = some parsed)
    (hobject : isObjectType parsed = true) (hversion : isVersion (parsed.get (js "version")) = true) :
    store.load host (.text raw) = (persistableSnapshot parsed).map some := by
  simp [FileSessionStore.load, hparse, hobject, hversion]

/-- A loaded snapshot is what the filter leaves of the text's value. -/
theorem load_ok {raw : JsString} {s : Json} (h : store.load host (.text raw) = .ok (some s)) :
    ∃ parsed, Json.parse host raw = some parsed ∧ persistableSnapshot parsed = .ok s := by
  unfold FileSessionStore.load at h
  dsimp only at h
  split at h
  · cases h
  · rename_i parsed hparse
    refine ⟨parsed, hparse, ?_⟩
    split at h
    · cases h
    · split at h
      · split at h <;> cases h
      · cases hs : persistableSnapshot parsed with
        | error e =>
          rw [hs] at h
          cases h
        | ok s' =>
          rw [hs] at h
          cases h
          rfl

theorem persistable_error {snapshot : Json} {e : StoreError} (h : persistableSnapshot snapshot = .error e) :
    e = .typeError := by
  have hthrows : ∀ {value : Option Json}, filterable value = .error e → e = .typeError := by
    intro value hvalue
    unfold filterable at hvalue
    split at hvalue
    · split at hvalue
      · exact (Except.error.inj hvalue).symm
      · cases hvalue
    · exact (Except.error.inj hvalue).symm
  unfold persistableSnapshot at h
  split at h
  · rename_i e' he
    cases h
    exact hthrows he
  · dsimp only at h
    split at h
    · cases h
    · split at h
      · rename_i e' he
        cases h
        exact hthrows he
      · cases h

theorem load_declared (raw : JsString) : Declared (store.load host (.text raw)) ↔ Loadable host raw := by
  cases hparse : Json.parse host raw with
  | none =>
    refine iff_of_true ?_ fun parsed h => by rw [hparse] at h; cases h
    simp [FileSessionStore.load, hparse, Declared, FileSessionStore.branded]
  | some parsed =>
    have hone : Loadable host raw ↔ (isObjectType parsed = true →
        if isVersion (parsed.get (js "version")) then LoadsWell parsed
        else (versionText host (parsed.get (js "version"))).isSome = true) := by
      constructor
      · exact fun h => h parsed hparse
      · intro h p hp
        rw [hparse] at hp
        cases hp
        exact h
    rw [hone]
    by_cases hobject : isObjectType parsed = true
    · simp only [hobject, forall_const]
      by_cases hversion : isVersion (parsed.get (js "version")) = true
      · rw [if_pos hversion, load_version host store hparse hobject hversion,
          ← loadsWell_iff (isVersion_number hversion)]
        cases hs : persistableSnapshot parsed with
        | error e =>
          obtain rfl := persistable_error hs
          refine iff_of_false (fun h => h) ?_
          intro hex
          obtain ⟨s, h, -⟩ := hex
          cases h
        | ok s =>
          constructor
          · exact fun h => ⟨s, rfl, h⟩
          · intro hex
            obtain ⟨s', h, hshape⟩ := hex
            cases h
            exact hshape
      · rw [if_neg hversion]
        cases htext : versionText host (parsed.get (js "version")) with
        | none =>
          refine iff_of_false ?_ (by simp)
          simp [FileSessionStore.load, hparse, hobject, hversion, htext, Declared]
        | some text =>
          refine iff_of_true ?_ rfl
          simp [FileSessionStore.load, hparse, hobject, hversion, htext, Declared, FileSessionStore.branded]
    · refine iff_of_true ?_ fun h => absurd h hobject
      simp [FileSessionStore.load, hparse, hobject, Declared, FileSessionStore.branded]

/-- What `save` wrote loads as what it wrote. -/
theorem load_saved {s : Json} (hwell : s.WellFormed host) (hversion : isVersion (s.get (js "version")) = true)
    (hsettled : persistableSnapshot s = .ok s) :
    store.load host (.text (Json.stringifyIndented host s ++ [0x0A])) = .ok (some s) := by
  have hblank : Json.Blank [0x20, 0x20] := by simp [Json.Blank, Json.isJsonSpace]
  have hline : Json.Blank [0x0A] := by simp [Json.Blank, Json.isJsonSpace]
  have hobject : isObjectType s = true := by
    cases s with
    | obj fields => rfl
    | _ => cases hversion
  rw [Json.stringifyIndented, load_version host store (Json.parse_render hblank hwell hline) hobject hversion, hsettled]
  rfl

theorem mem_keys_of_get {value v : Json} {key : JsString} (h : value.get key = some v) :
    key ∈ value.entries.map Prod.fst ∧ (key, v) ∈ value.entries := by
  obtain ⟨f, hfind, rfl⟩ := Option.map_eq_some_iff.mp h
  have hkey : f.1 = key := by simpa using List.find?_some hfind
  have hmem := List.mem_of_find?_eq_some hfind
  exact ⟨List.mem_map.mpr ⟨f, hmem, hkey⟩, hkey ▸ hmem⟩

/-- The filter keeps a value that can be written such a value. -/
theorem persistable_wellFormed {snapshot s : Json} (hwell : snapshot.WellFormed host)
    (h : persistableSnapshot snapshot = .ok s) : s.WellFormed host := by
  unfold persistableSnapshot at h
  split at h
  · cases h
  · rename_i rows hrows
    dsimp only at h
    split at h
    · cases h
      exact hwell
    · split at h
      · cases h
      · rename_i entries hentries
        cases h
        obtain ⟨hsessions, hrow⟩ := mem_keys_of_get (filterable_ok.mp hrows).1
        obtain ⟨hunread, hentry⟩ := mem_keys_of_get (filterable_ok.mp hentries).1
        have hpart : ∀ {items : List Json} (p : Json → Bool), (Json.arr items).WellFormed host →
            (Json.arr (items.filter p)).WellFormed host := by
          intro items p hitems
          obtain _ | _ | _ | _ | hitems | _ := hitems
          exact .arr fun v hv => hitems v (List.mem_filter.mp hv).1
        cases snapshot with
        | obj fields =>
          have hfields : ∀ f ∈ fields, f.2.WellFormed host := by
            obtain _ | _ | _ | _ | _ | ⟨-, hfields⟩ := hwell
            exact hfields
          refine (hwell.replace hsessions (hpart _ (hfields _ hrow))).replace ?_ (hpart _ (hfields _ hentry))
          have hkey : js "sessions" ∈ fields.map Prod.fst := hsessions
          rw [(Json.keys_setProp _ _ _).mem_iff, if_pos hkey]
          exact hunread
        | _ => cases hsessions

end

/-! ## The boundary -/

/-- What the filter answers with has no registering row and passes again as it is, and it names
    only its own sessions if and only if a row was dropped or the snapshot did already; a
    snapshot of the declared shape passes and keeps it, and what is saved of it loads back.
    What a load answers with is what the filter leaves of the text, and a load is as declared
    exactly for the texts that are `Loadable`. -/
theorem store_boundary (host : JsonHost) (store : FileSessionStore) :
    (∀ snapshot s, persistableSnapshot snapshot = .ok s →
      ¬ HasRegistering s ∧ persistableSnapshot s = .ok s ∧
        (NamesPresent s ↔ HasRegistering snapshot ∨ NamesPresent snapshot)) ∧
    (∀ snapshot, isSnapshot snapshot = true → ∃ s, persistableSnapshot snapshot = .ok s ∧ isSnapshot s = true ∧
      FileSessionStore.save host snapshot = .ok (Json.stringifyIndented host s ++ [0x0A]) ∧
      (snapshot.WellFormed host → isVersion (snapshot.get (js "version")) = true →
        store.load host (.text (Json.stringifyIndented host s ++ [0x0A])) = .ok (some s))) ∧
    (∀ raw s, store.load host (.text raw) = .ok (some s) →
      ∃ parsed, Json.parse host raw = some parsed ∧ persistableSnapshot parsed = .ok s) ∧
    (∀ raw, Declared (store.load host (.text raw)) ↔ Loadable host raw) := by
  refine ⟨fun snapshot s => persistable_facts, fun snapshot hshape => ?_, fun raw s => load_ok host store,
    load_declared host store⟩
  obtain ⟨s, hs, hkeeps⟩ := persistable_snapshot hshape
  refine ⟨s, hs, hkeeps, by rw [FileSessionStore.save, hs]; rfl, fun hwell hversion => ?_⟩
  refine load_saved host store (persistable_wellFormed host hwell hs) ?_ (persistable_facts hs).2.1
  rwa [persistable_version hs]

def row (id status : JsString) : Json :=
  .obj [(js "id", .str id), (js "status", .str status), (js "activity", .obj [(js "kind", .str (js "idle"))]),
    (js "autoResolvesPermissions", .bool false), (js "createdAt", .num 0), (js "lastActivityAt", .num 0),
    (js "lastHeartbeatAt", .num 0)]

def unreadOf (sessionId : JsString) : Json :=
  .obj [(js "sessionId", .str sessionId), (js "eventId", .num 1), (js "at", .num 0),
    (js "activity", .obj [(js "kind", .str (js "idle"))])]

def snapshotOf (rows entries : List Json) : Json :=
  .obj [(js "version", .num SESSION_STORE_SNAPSHOT_VERSION), (js "sessions", .arr rows), (js "unread", .arr entries)]

def stateFile : FileSessionStore := ⟨js "/state/session-store.json"⟩

theorem idle_wellFormed : (Json.obj [(js "kind", .str (js "idle"))]).WellFormed integerHost :=
  .names [js "kind"] rfl (by decide) (by decide) (by simp [Json.WellFormed.str])

theorem row_wellFormed (id status : JsString) : (row id status).WellFormed integerHost := by
  have hzero : (Json.num 0).WellFormed integerHost := .num rfl
  refine .names [js "id", js "status", js "activity", js "autoResolvesPermissions", js "createdAt", js "lastActivityAt",
    js "lastHeartbeatAt"] rfl (by decide) (by decide) ?_
  simp [Json.WellFormed.str, Json.WellFormed.bool, idle_wellFormed, hzero]

theorem unreadOf_wellFormed (sessionId : JsString) : (unreadOf sessionId).WellFormed integerHost := by
  have hzero : (Json.num 0).WellFormed integerHost := .num rfl
  have hone : (Json.num 1).WellFormed integerHost := .num rfl
  refine .names [js "sessionId", js "eventId", js "at", js "activity"] rfl (by decide) (by decide) ?_
  simp [Json.WellFormed.str, idle_wellFormed, hzero, hone]

theorem snapshotOf_wellFormed {rows entries : List Json} (hrows : ∀ r ∈ rows, r.WellFormed integerHost)
    (hentries : ∀ entry ∈ entries, entry.WellFormed integerHost) : (snapshotOf rows entries).WellFormed integerHost := by
  have hfour : (Json.num SESSION_STORE_SNAPSHOT_VERSION).WellFormed integerHost := .num rfl
  refine .names [js "version", js "sessions", js "unread"] rfl (by decide) (by decide) ?_
  simp [hfour, Json.WellFormed.arr hrows, Json.WellFormed.arr hentries]

/-- A launch that was registering, and what was unread of it, are gone after a restart. -/
theorem store_boundary_launch :
    ∃ s, stateFile.load integerHost (.text (Json.stringifyIndented integerHost s ++ [0x0A])) = .ok (some s) ∧
      FileSessionStore.save integerHost (snapshotOf [row (js "a") (js "ready"), row (js "b") (js "registering")]
        [unreadOf (js "b"), unreadOf (js "a")]) = .ok (Json.stringifyIndented integerHost s ++ [0x0A]) ∧
      isSnapshot s = true ∧ ¬ HasRegistering s ∧ NamesPresent s := by
  have h := store_boundary integerHost stateFile
  obtain ⟨s, hs, hshape, hsave, hload⟩ := h.2.1 (snapshotOf [row (js "a") (js "ready"), row (js "b") (js "registering")]
    [unreadOf (js "b"), unreadOf (js "a")]) (by decide)
  have hfacts := h.1 _ _ hs
  refine ⟨s, hload (snapshotOf_wellFormed ?_ ?_) rfl, hsave, hshape, hfacts.1,
    hfacts.2.2.mpr (Or.inl ⟨_, rfl, row (js "b") (js "registering"), by simp, by decide⟩)⟩
  · simp [row_wellFormed]
  · simp [unreadOf_wellFormed]

/-- A version and nothing else. -/
def versionOnly : Json := .obj [(js "version", .num SESSION_STORE_SNAPSHOT_VERSION)]

/-- An entry of a session that is not there is saved and loaded again, and a file that holds a
    version and nothing else throws. -/
theorem orphan_entry_kept :
    isSnapshot (snapshotOf [] [unreadOf (js "gone")]) = true ∧ ¬ NamesPresent (snapshotOf [] [unreadOf (js "gone")]) ∧
    FileSessionStore.save integerHost (snapshotOf [] [unreadOf (js "gone")]) =
      .ok (Json.stringifyIndented integerHost (snapshotOf [] [unreadOf (js "gone")]) ++ [0x0A]) ∧
    stateFile.load integerHost
        (.text (Json.stringifyIndented integerHost (snapshotOf [] [unreadOf (js "gone")]) ++ [0x0A])) =
      .ok (some (snapshotOf [] [unreadOf (js "gone")])) ∧
    ¬ Declared (stateFile.load integerHost (.text (Json.stringify integerHost versionOnly))) := by
  have hwell : (snapshotOf [] [unreadOf (js "gone")]).WellFormed integerHost :=
    snapshotOf_wellFormed (by simp) (by simp [unreadOf_wellFormed])
  have hversion : versionOnly.WellFormed integerHost := by
    refine .obj rfl fun f hf => ?_
    obtain rfl := List.mem_singleton.mp hf
    exact .num rfl
  refine ⟨by decide, fun h => ?_, rfl, load_saved integerHost stateFile hwell rfl rfl, ?_⟩
  · exact absurd (h [] [unreadOf (js "gone")] rfl rfl (unreadOf (js "gone")) (by simp)) (by decide)
  · rw [load_version integerHost stateFile (Json.parse_stringify hversion) rfl rfl]
    exact fun h => h

end Ccctl.Server.SessionStore
