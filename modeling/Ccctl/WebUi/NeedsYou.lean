import Ccctl.Core.JsonText
import Ccctl.Server.UnreadQueue
import Ccctl.WebUi.Client
/-
  Ccctl.WebUi.NeedsYou — the page's half of the unread queue
  (`packages/web-ui/src/needs-you.js`: `decodeUnreadEntry`, `reconcileNeedsYou`, `needsYouAckBody`,
  `needsYouKey`; `packages/web-ui/src/app.js`: `reconcileNeedsYouQueue`, `ackNeedsYou`, and what
  `selectSession`, `applySessionList` and `loadSessions` do to the queue).

  An answer of the queue's route comes in at any time, for a request made at any time before, so an
  entry the page acknowledged may come in again. An acknowledgement is a turn that takes the
  session's entries, marks their keys and makes the first POST; each further one waits for the one
  before (`acking`). Whether the server ever hears of one is no part of the page's state.

  - `needsYou_lawful`: in every run what is badged is under its own session, by increasing event id,
    never acknowledged, and never of the session in view; and what is acknowledged was reported, its
    session was in view, and its POST is made once.
  - `badged_exact`: an answer that holds the server's queue leaves, for each session but the one in
    view, the server's own reconcile of it less what the page has acknowledged.
-/

namespace Ccctl.WebUi

open Ccctl.Core Ccctl.Lib
open Ccctl.Server (UnreadEntry reconcileUnread mem_reconcile reconcile_ordered)

/-! ## The answer -/

def REQUIRES_ACTION_KIND : JsString := js "requires_action"

/-- `Number.isInteger(eventId) && eventId >= 1`. -/
def isEventId (q : Rat) : Bool := q.den = 1 ∧ 1 ≤ q

def asEventId : Option Json → Option Rat
  | some (.num q) => if isEventId q then some q else none
  | _ => none

def requiresActionDetail (activity : Json) : Option JsString :=
  if activity.isPlainObject ∧ Json.asString (activity.get (js "kind")) = some REQUIRES_ACTION_KIND then
    Json.asString (activity.get (js "detail"))
  else none

def decodeUnreadEntry (value : Json) : Option UnreadEntry :=
  if value.isPlainObject then
    match Json.asString (value.get (js "sessionId")), asEventId (value.get (js "eventId")), value.get (js "at"),
        (value.get (js "activity")).bind requiresActionDetail with
    | some sessionId, some eventId, some (.num at_), some detail =>
      if trim sessionId = [] then none else some ⟨sessionId, eventId, at_, .requiresAction detail⟩
    | _, _, _, _ => none
  else none

/-- The units of a text, by which `<` compares two. -/
def units (s : JsString) : List Nat := s.map UInt16.toNat

/-- The comparator of the sort is not positive. -/
def deliveredBefore (left right : UnreadEntry) : Bool :=
  if left.sessionId ≠ right.sessionId then decide (units left.sessionId < units right.sessionId)
  else decide (left.eventId - right.eventId ≤ 0)

/-- `payload?.unread`, decoded and sorted; `sort` is stable. -/
def reconcileNeedsYou (payload : Json) : List UnreadEntry :=
  (((Json.asArray (payload.get (js "unread"))).getD []).filterMap decodeUnreadEntry).insertionSort
    fun left right => deliveredBefore left right = true

def activityJson : SessionActivity → Json
  | .running => .obj [(js "kind", .str (js "running"))]
  | .requiresAction detail => .obj [(js "kind", .str REQUIRES_ACTION_KIND), (js "detail", .str detail)]
  | .idle => .obj [(js "kind", .str (js "idle"))]

def unreadEntryJson (entry : UnreadEntry) : Json :=
  .obj [(js "sessionId", .str entry.sessionId), (js "eventId", .num entry.eventId), (js "at", .num entry.atMs),
    (js "activity", activityJson entry.activity)]

/-- The body of an answer that holds this queue. -/
def unreadJson (unread : List UnreadEntry) : Json := .obj [(js "unread", .arr (unread.map unreadEntryJson))]

structure NeedsYouAck where
  sessionId : JsString
  eventId : Rat
  deriving DecidableEq

def needsYouAckBody (entry : UnreadEntry) : Option NeedsYouAck :=
  if trim entry.sessionId = [] ∨ isEventId entry.eventId = false then none
  else some ⟨entry.sessionId, entry.eventId⟩

/-! ## The page -/

/-- The POSTs of one acknowledgement that are still to be made. -/
abbrev AckLoop := List NeedsYouAck

structure NeedsYou where
  currentSessionId : Option JsString
  renderedSessions : List SessionSummary
  needsYou : OrdMap JsString (List UnreadEntry)
  ackedNeedsYou : List JsString
  acking : List AckLoop
  posted : List NeedsYouAck

inductive NeedsYouEvent where
  /-- A 2xx answer; `null` when its body is no JSON. -/
  | reconciled (payload : Json)
  | listed (sessions : List SessionSummary)
  | select (sessionId : JsString)
  /-- A POST of an acknowledgement settles, whichever way, and the next one goes out. -/
  | post (loop : Nat)

namespace NeedsYou

def new : NeedsYou := ⟨none, [], .empty, [], [], []⟩

section
variable (host : JsonHost)

def ackKey (ack : NeedsYouAck) : JsString := ack.sessionId ++ 0x3A :: host.numberText ack.eventId

def needsYouKey (entry : UnreadEntry) : Option JsString := (needsYouAckBody entry).map (ackKey host)

def ackNeedsYou (s : NeedsYou) (sessionId : JsString) : NeedsYou :=
  match s.needsYou.get sessionId with
  | none | some [] => s
  | some entries =>
    let bodies := entries.filterMap needsYouAckBody
    { s with
      needsYou := s.needsYou.erase sessionId
      ackedNeedsYou := s.ackedNeedsYou ++ bodies.map (ackKey host)
      posted := s.posted ++ bodies.take 1
      acking := s.acking ++ [bodies.drop 1] }

/-- The loop over the reconciled entries. -/
def surface (acked : List JsString) (badged : OrdMap JsString (List UnreadEntry)) (entry : UnreadEntry) :
    OrdMap JsString (List UnreadEntry) :=
  match needsYouKey host entry with
  | none => badged
  | some key =>
    if key ∈ acked then badged
    else
      match badged.get entry.sessionId with
      | none => badged.set entry.sessionId [entry]
      | some list => badged.set entry.sessionId (list ++ [entry])

/-- `needsYou.clear()`, and the loop. -/
def surfaceAll (s : NeedsYou) (entries : List UnreadEntry) : NeedsYou :=
  { s with needsYou := entries.foldl (surface host s.ackedNeedsYou) .empty }

def reconcileNeedsYouQueue (s : NeedsYou) (payload : Json) : NeedsYou :=
  match s.currentSessionId with
  | some current => ackNeedsYou host (surfaceAll host s (reconcileNeedsYou payload)) current
  | none => surfaceAll host s (reconcileNeedsYou payload)

def selectSession (s : NeedsYou) (sessionId : JsString) : NeedsYou :=
  if s.currentSessionId = some sessionId then s
  else ackNeedsYou host { s with currentSessionId := some sessionId } sessionId

/-- A session that is not listed any more is not badged; `diff.removed` is read off the ids alone. -/
def applySessionList (s : NeedsYou) (sessions : List SessionSummary) : NeedsYou :=
  if sessions = [] then { s with renderedSessions := [], needsYou := .empty }
  else
    let removed := (s.renderedSessions.map (·.id)).filter fun id => id ∉ sessions.map (·.id)
    { s with renderedSessions := sessions, needsYou := removed.foldl OrdMap.erase s.needsYou }

def loadSessions (s : NeedsYou) (sessions : List SessionSummary) : NeedsYou :=
  let s := s.applySessionList sessions
  match nextSelection s.currentSessionId sessions with
  | .select id => selectSession host s id
  | .clear => { s with currentSessionId := none }
  | .keep => s

def post (s : NeedsYou) (loop : Nat) : NeedsYou :=
  match s.acking[loop]? with
  | some (ack :: rest) => { s with acking := s.acking.set loop rest, posted := s.posted ++ [ack] }
  | _ => s

def step (s : NeedsYou) : NeedsYouEvent → NeedsYou
  | .reconciled payload => reconcileNeedsYouQueue host s payload
  | .listed sessions => loadSessions host s sessions
  | .select sessionId => selectSession host s sessionId
  | .post loop => s.post loop

/-! ## The watch -/

/-- Every entry an answer reported, and every session that was in view. -/
structure Attended where
  told : List UnreadEntry
  viewed : List JsString

def see (s : NeedsYou) (e : NeedsYouEvent) (g : Attended) : Attended :=
  { told := match e with
      | .reconciled payload => g.told ++ reconcileNeedsYou payload
      | _ => g.told
    viewed := g.viewed ++ (step host s e).currentSessionId.toList }

/-- An answer holds numbers of the engine's, and no event twice (`Accounts.distinct`). -/
structure Answer (payload : Json) : Prop where
  numbers : ∀ entry ∈ reconcileNeedsYou payload, host.isNumber entry.eventId = true
  distinct : ((reconcileNeedsYou payload).map UnreadEntry.key).Nodup

def answered : NeedsYouEvent → Prop
  | .reconciled payload => Answer host payload
  | _ => True

abbrev NeedsYouRun : NeedsYou × Attended → Prop :=
  Reach (watched (step host) (see host)) (fun p => p = (new, ⟨[], []⟩)) fun _ e => answered host e

/-- The acknowledgements made: those posted and those being posted. -/
def acks (s : NeedsYou) : List NeedsYouAck := s.posted ++ s.acking.flatten

/-- The entries a session is badged for. -/
structure Badged (s : NeedsYou) (g : Attended) (id : JsString) (entries : List UnreadEntry) : Prop where
  nonempty : entries ≠ []
  ordered : entries.Pairwise fun left right => left.eventId < right.eventId
  own : ∀ entry ∈ entries, entry.sessionId = id ∧ entry ∈ g.told
  unacked : ∀ entry ∈ entries, ∃ key, needsYouKey host entry = some key ∧ key ∉ s.ackedNeedsYou

/-- The page's queue, in the middle of a turn. -/
structure Books (s : NeedsYou) (g : Attended) : Prop where
  numbers : ∀ entry ∈ g.told, host.isNumber entry.eventId = true
  badged : ∀ id entries, s.needsYou.get id = some entries → Badged host s g id entries
  marked : ∀ key, key ∈ s.ackedNeedsYou ↔ ∃ ack ∈ s.acks, ackKey host ack = key
  attended : ∀ ack ∈ s.acks, ack.sessionId ∈ g.viewed ∧ ∃ entry ∈ g.told, needsYouAckBody entry = some ack
  once : s.acks.Nodup

/-- The page's queue, between turns. -/
structure Kept (s : NeedsYou) (g : Attended) : Prop extends Books host s g where
  away : ∀ id, s.currentSessionId = some id → id ∈ g.viewed ∧ s.needsYou.get id = none

end

/-! ## Keys -/

section
variable {host : JsonHost}

theorem ackBody_some {entry : UnreadEntry} {ack : NeedsYouAck} (h : needsYouAckBody entry = some ack) :
    ack = ⟨entry.sessionId, entry.eventId⟩ := by
  unfold needsYouAckBody at h
  split at h
  · cases h
  · exact (Option.some.inj h).symm

theorem key_some {entry : UnreadEntry} {key : JsString} (h : needsYouKey host entry = some key) :
    needsYouAckBody entry = some ⟨entry.sessionId, entry.eventId⟩ ∧ key = ackKey host ⟨entry.sessionId, entry.eventId⟩ := by
  obtain ⟨ack, hbody, rfl⟩ := Option.map_eq_some_iff.mp h
  exact ⟨ackBody_some hbody ▸ hbody, congrArg _ (ackBody_some hbody)⟩

theorem colon_not_mem {q : Rat} (hq : host.isNumber q = true) : (0x3A : UInt16) ∉ host.numberText q := fun hmem =>
  absurd (isNumeral_units (host.numeral q hq) _ hmem) (by decide)

/-- Of events numbered by the engine's numbers, a key names one. -/
theorem ackKey_inj {a b : NeedsYouAck} (ha : host.isNumber a.eventId = true) (hb : host.isNumber b.eventId = true)
    (h : ackKey host a = ackKey host b) : a = b := by
  have hrev := congrArg List.reverse h
  simp only [ackKey, List.reverse_append, List.reverse_cons, List.append_assoc, List.singleton_append] at hrev
  have hmark : ∀ {q : Rat}, host.isNumber q = true → ∀ u ∈ (host.numberText q).reverse, decide (u ≠ 0x3A) = true := by
    intro q hq u hu
    exact decide_eq_true fun heq => colon_not_mem hq (heq ▸ List.mem_reverse.mp hu)
  have htext := congrArg (List.takeWhile fun u => decide (u ≠ 0x3A)) hrev
  rw [List.takeWhile_append_of_pos (hmark ha), List.takeWhile_append_of_pos (hmark hb),
    List.takeWhile_cons_of_neg (by simp), List.takeWhile_cons_of_neg (by simp), List.append_nil, List.append_nil] at htext
  rw [htext] at hrev
  have hid := List.tail_eq_of_cons_eq (List.append_cancel_left hrev)
  have hevent : a.eventId = b.eventId := by
    rw [← host.value_text _ ha, List.reverse_injective htext, host.value_text _ hb]
  have hsession : a.sessionId = b.sessionId := List.reverse_injective hid
  cases a
  cases b
  simp_all

end

/-! ## What an acknowledgement does -/

section
variable {host : JsonHost} {s : NeedsYou} {g : Attended}

/-- The bodies of a session's entries. -/
theorem mem_bodies {entries : List UnreadEntry} {ack : NeedsYouAck} (h : ack ∈ entries.filterMap needsYouAckBody) :
    ∃ entry ∈ entries, needsYouAckBody entry = some ack ∧ ack = ⟨entry.sessionId, entry.eventId⟩ := by
  obtain ⟨entry, hentry, hbody⟩ := List.mem_filterMap.mp h
  exact ⟨entry, hentry, hbody, ackBody_some hbody⟩

theorem bodies_nodup {entries : List UnreadEntry} (h : entries.Pairwise fun left right => left.eventId < right.eventId) :
    (entries.filterMap needsYouAckBody).Nodup := by
  refine List.pairwise_filterMap.mpr (h.imp fun {left right} hlt ack hack ack' hack' heq => ?_)
  rw [heq, ackBody_some hack'] at hack
  exact hlt.ne (congrArg NeedsYouAck.eventId (ackBody_some hack)).symm

theorem Books.ack (h : Books host s g) {id : JsString} (hviewed : id ∈ g.viewed) :
    Books host (ackNeedsYou host s id) g ∧ (ackNeedsYou host s id).needsYou.get id = none ∧
      (ackNeedsYou host s id).currentSessionId = s.currentSessionId := by
  unfold ackNeedsYou
  split
  case h_1 hget => exact ⟨h, hget, rfl⟩
  case h_2 hget => exact absurd rfl (h.badged id [] hget).nonempty
  case h_3 entries _ hget =>
    have hbadged := h.badged id entries hget
    have hnumber : ∀ ack ∈ entries.filterMap needsYouAckBody, host.isNumber ack.eventId = true := by
      intro ack hack
      obtain ⟨entry, hentry, -, rfl⟩ := mem_bodies hack
      exact h.numbers entry (hbadged.own entry hentry).2
    have hnew : ∀ ack ∈ entries.filterMap needsYouAckBody, ackKey host ack ∉ s.ackedNeedsYou := by
      intro ack hack
      obtain ⟨entry, hentry, -, rfl⟩ := mem_bodies hack
      obtain ⟨key, hkey, hnot⟩ := hbadged.unacked entry hentry
      rwa [(key_some hkey).2] at hnot
    have hacks : ((s.posted ++ (entries.filterMap needsYouAckBody).take 1) ++
        (s.acking ++ [(entries.filterMap needsYouAckBody).drop 1]).flatten).Perm
          (s.acks ++ entries.filterMap needsYouAckBody) := by
      have hbodies := List.take_append_drop 1 (entries.filterMap needsYouAckBody)
      simp only [acks, List.flatten_append, List.flatten_singleton, List.append_assoc]
      refine List.Perm.append_left _ ?_
      nth_rewrite 3 [← hbodies]
      rw [← List.append_assoc, ← List.append_assoc]
      exact List.perm_append_comm.append_right _
    refine ⟨⟨h.numbers, ?_, ?_, ?_, ?_⟩, OrdMap.get_erase_self _ _, rfl⟩
    · intro other others hother
      have hne : other ≠ id := by
        intro heq
        subst heq
        rw [OrdMap.get_erase_self] at hother
        cases hother
      rw [OrdMap.get_erase_ne _ hne] at hother
      have hold := h.badged other others hother
      refine ⟨hold.nonempty, hold.ordered, hold.own, fun entry hentry => ?_⟩
      obtain ⟨key, hkey, hnot⟩ := hold.unacked entry hentry
      refine ⟨key, hkey, fun hmem => ?_⟩
      rcases List.mem_append.mp hmem with hmem | hmem
      · exact hnot hmem
      · obtain ⟨ack, hack, hsame⟩ := List.mem_map.mp hmem
        rw [(key_some hkey).2] at hsame
        have hself := ackKey_inj (hnumber ack hack) (h.numbers entry (hold.own entry hentry).2) hsame
        obtain ⟨mine, hmine, -, hbody⟩ := mem_bodies hack
        rw [hself] at hbody
        have hsession := congrArg NeedsYouAck.sessionId hbody
        exact hne (((hold.own entry hentry).1.symm.trans hsession).trans (hbadged.own mine hmine).1)
    · intro key
      show key ∈ s.ackedNeedsYou ++ _ ↔ ∃ ack ∈ (s.posted ++ _) ++ _, _
      simp only [hacks.mem_iff, List.mem_append, List.mem_map, h.marked, or_and_right, exists_or]
    · intro ack hack
      rcases List.mem_append.mp (hacks.mem_iff.mp hack) with hold | hmine
      · exact h.attended ack hold
      · obtain ⟨entry, hentry, hbody, rfl⟩ := mem_bodies hmine
        obtain ⟨hown, htold⟩ := hbadged.own entry hentry
        exact ⟨hown ▸ hviewed, entry, htold, hbody⟩
    · refine hacks.nodup_iff.mpr (List.nodup_append'.mpr ⟨h.once, bodies_nodup hbadged.ordered, fun ack hold hmine => ?_⟩)
      exact hnew ack hmine ((h.marked _).mpr ⟨ack, hold, rfl⟩)

/-! ## What a reconcile leaves -/

/-- The entry is badged for the session: it is the session's, and not acknowledged. -/
def shows (host : JsonHost) (acked : List JsString) (id : JsString) (entry : UnreadEntry) : Bool :=
  entry.sessionId = id && (needsYouKey host entry).any fun key => key ∉ acked

theorem get_surface (acked : List JsString) (badged : OrdMap JsString (List UnreadEntry)) (entry : UnreadEntry)
    (id : JsString) :
    (surface host acked badged entry).get id =
      if shows host acked id entry then some ((badged.get id).getD [] ++ [entry]) else badged.get id := by
  have hset : ∀ list, (badged.set entry.sessionId list).get id =
      if entry.sessionId = id then some list else badged.get id := fun list => by
    rw [OrdMap.get_set]
    exact if_congr eq_comm rfl rfl
  unfold surface shows
  cases hkey : needsYouKey host entry with
  | none => simp
  | some key =>
    by_cases hacked : key ∈ acked
    · simp [hacked]
    · by_cases hid : entry.sessionId = id
      · subst hid
        cases hget : badged.get entry.sessionId <;> simp [hacked, hset]
      · cases hget : badged.get entry.sessionId <;> simp [hacked, hset, hid]

theorem get_surfaced (acked : List JsString) (entries : List UnreadEntry) (badged : OrdMap JsString (List UnreadEntry))
    (id : JsString) :
    (entries.foldl (surface host acked) badged).get id =
      if entries.filter (shows host acked id) = [] then badged.get id
      else some ((badged.get id).getD [] ++ entries.filter (shows host acked id)) := by
  induction entries generalizing badged with
  | nil => simp
  | cons entry rest ih =>
    rw [List.foldl_cons, ih, get_surface, List.filter_cons]
    by_cases hshow : shows host acked id entry = true
    · rw [if_pos hshow, if_pos hshow, if_neg (List.cons_ne_nil _ _)]
      split
      case isTrue hnone => rw [hnone]
      case isFalse => simp
    · rw [if_neg hshow, if_neg hshow]

/-- From no badges at all. -/
theorem get_surfaced_empty (acked : List JsString) (entries : List UnreadEntry) (id : JsString) :
    (entries.foldl (surface host acked) .empty).get id =
      if entries.filter (shows host acked id) = [] then none else some (entries.filter (shows host acked id)) :=
  get_surfaced acked entries .empty id

theorem shows_iff {acked : List JsString} {id : JsString} {entry : UnreadEntry} :
    shows host acked id entry = true ↔ entry.sessionId = id ∧ ∃ key, needsYouKey host entry = some key ∧ key ∉ acked := by
  unfold shows
  cases needsYouKey host entry <;> simp

/-! ## The order of an answer -/

theorem units_injective : Function.Injective units := List.map_injective_iff.mpr fun _ _ h => UInt16.toNat_inj.mp h

theorem deliveredBefore_iff {left right : UnreadEntry} : deliveredBefore left right = true ↔
    units left.sessionId < units right.sessionId ∨
      left.sessionId = right.sessionId ∧ left.eventId ≤ right.eventId := by
  unfold deliveredBefore
  split
  case isTrue hne => simp [hne]
  case isFalse heq =>
    have hsame : left.sessionId = right.sessionId := not_not.mp heq
    simp [hsame]

instance : IsTrans UnreadEntry fun left right => deliveredBefore left right = true where
  trans a b c hab hbc := by
    rw [deliveredBefore_iff] at hab hbc ⊢
    rcases hab with hab | ⟨hab, hle⟩
    · rcases hbc with hbc | ⟨hbc, -⟩
      · exact .inl (hab.trans hbc)
      · exact .inl (hbc ▸ hab)
    · rcases hbc with hbc | ⟨hbc, hle'⟩
      · exact .inl (hab ▸ hbc)
      · exact .inr ⟨hab.trans hbc, hle.trans hle'⟩

instance : Std.Total fun left right : UnreadEntry => deliveredBefore left right = true where
  total a b := by
    rw [deliveredBefore_iff, deliveredBefore_iff]
    rcases lt_trichotomy (units a.sessionId) (units b.sessionId) with hlt | heq | hgt
    · exact .inl (.inl hlt)
    · have hsame := units_injective heq
      rcases le_total a.eventId b.eventId with hle | hle
      · exact .inl (.inr ⟨hsame, hle⟩)
      · exact .inr (.inr ⟨hsame.symm, hle⟩)
    · exact .inr (.inl hgt)

/-- Within a session an answer is in the order of the event ids. -/
theorem reconciled_ordered (payload : Json) : (reconcileNeedsYou payload).Pairwise fun left right =>
    left.sessionId = right.sessionId → left.eventId ≤ right.eventId := by
  refine (List.pairwise_insertionSort _ _).imp fun {a b} hab hsame => ?_
  rcases deliveredBefore_iff.mp hab with hlt | ⟨-, hle⟩
  · exact absurd (hsame ▸ hlt) (lt_irrefl _)
  · exact hle

/-- A session's entries of an answer that holds none twice. -/
theorem reconciled_strict {payload : Json} (h : ((reconcileNeedsYou payload).map UnreadEntry.key).Nodup)
    (acked : List JsString) (id : JsString) :
    ((reconcileNeedsYou payload).filter (shows host acked id)).Pairwise
      fun left right => left.eventId < right.eventId := by
  have hboth := ((reconciled_ordered payload).and (List.pairwise_map.mp h)).sublist
    (List.filter_sublist (p := shows host acked id))
  refine hboth.imp_of_mem fun {a b} ha hb hab => ?_
  have hsame : a.sessionId = b.sessionId :=
    (shows_iff.mp (List.mem_filter.mp ha).2).1.trans (shows_iff.mp (List.mem_filter.mp hb).2).1.symm
  exact lt_of_le_of_ne (hab.1 hsame) fun heq => hab.2 (Prod.ext hsame heq)

/-! ## What each turn keeps -/

theorem Books.look (h : Books host s g) (viewed : List JsString) :
    Books host s { g with viewed := g.viewed ++ viewed } :=
  ⟨h.numbers, fun id entries hget => ⟨(h.badged id entries hget).nonempty, (h.badged id entries hget).ordered,
    (h.badged id entries hget).own, (h.badged id entries hget).unacked⟩, h.marked,
    fun ack hack => ⟨List.mem_append_left _ (h.attended ack hack).1, (h.attended ack hack).2⟩, h.once⟩

/-- Badges go, and nothing else changes. -/
theorem Books.fewer {s' : NeedsYou} (h : Books host s g) (hacked : s'.ackedNeedsYou = s.ackedNeedsYou)
    (hacks : s'.acks = s.acks) (hget : ∀ id entries, s'.needsYou.get id = some entries → s.needsYou.get id = some entries) :
    Books host s' g := by
  refine ⟨h.numbers, fun id entries hsome => ?_, ?_, ?_, ?_⟩
  · have hold := h.badged id entries (hget id entries hsome)
    exact ⟨hold.nonempty, hold.ordered, hold.own, hacked ▸ hold.unacked⟩
  · rw [hacked, hacks]
    exact h.marked
  · rw [hacks]
    exact h.attended
  · rw [hacks]
    exact h.once

theorem Books.surfaced (h : Books host s g) {payload : Json} (ha : Answer host payload) :
    Books host (surfaceAll host s (reconcileNeedsYou payload)) { g with told := g.told ++ reconcileNeedsYou payload } := by
  refine ⟨?_, ?_, h.marked, ?_, h.once⟩
  · intro entry hentry
    rcases List.mem_append.mp hentry with hentry | hentry
    · exact h.numbers entry hentry
    · exact ha.numbers entry hentry
  · intro id entries hget
    have hget : ((reconcileNeedsYou payload).foldl (surface host s.ackedNeedsYou) .empty).get id = some entries := hget
    rw [get_surfaced_empty] at hget
    split at hget
    · cases hget
    · rename_i hne
      obtain rfl := Option.some.inj hget
      refine ⟨hne, reconciled_strict ha.distinct _ _, ?_, ?_⟩
      · intro entry hentry
        obtain ⟨hmem, hshows⟩ := List.mem_filter.mp hentry
        exact ⟨(shows_iff.mp hshows).1, List.mem_append_right _ hmem⟩
      · intro entry hentry
        exact (shows_iff.mp (List.mem_filter.mp hentry).2).2
  · intro ack hack
    obtain ⟨hviewed, entry, hentry, hbody⟩ := h.attended ack hack
    exact ⟨hviewed, entry, List.mem_append_left _ hentry, hbody⟩

theorem Kept.reconciled (h : Kept host s g) {payload : Json} (ha : Answer host payload) :
    Kept host (reconcileNeedsYouQueue host s payload)
      ⟨g.told ++ reconcileNeedsYou payload,
        g.viewed ++ (reconcileNeedsYouQueue host s payload).currentSessionId.toList⟩ := by
  have hbooks := h.surfaced ha
  unfold reconcileNeedsYouQueue
  split
  case h_1 current hcurrent =>
    obtain ⟨hacked, hgone, hsame⟩ := hbooks.ack (h.away current hcurrent).1
    have hview : (ackNeedsYou host (surfaceAll host s (reconcileNeedsYou payload)) current).currentSessionId =
        some current := hsame.trans hcurrent
    rw [hview]
    refine ⟨hacked.look [current], fun id hid => ?_⟩
    obtain rfl : current = id := Option.some.inj (hview.symm.trans hid)
    exact ⟨List.mem_append_right _ List.mem_cons_self, hgone⟩
  case h_2 hcurrent =>
    have hview : (surfaceAll host s (reconcileNeedsYou payload)).currentSessionId = none := hcurrent
    rw [hview]
    exact ⟨hbooks.look [], fun id hid => absurd (hview.symm.trans hid) (by simp)⟩

theorem Kept.selected (h : Books host s g) (haway : ∀ id, s.currentSessionId = some id → s.needsYou.get id = none)
    (id : JsString) :
    Kept host (selectSession host s id)
      { g with viewed := g.viewed ++ (selectSession host s id).currentSessionId.toList } := by
  unfold selectSession
  split
  case isTrue hcurrent =>
    rw [hcurrent]
    refine ⟨h.look [id], fun other hother => ?_⟩
    obtain rfl : id = other := Option.some.inj (hcurrent.symm.trans hother)
    exact ⟨List.mem_append_right _ List.mem_cons_self, haway id hcurrent⟩
  case isFalse =>
    have hmoved : Books host { s with currentSessionId := some id } { g with viewed := g.viewed ++ [id] } :=
      (h.look [id]).fewer rfl rfl fun _ _ hget => hget
    obtain ⟨hacked, hgone, hsame⟩ := hmoved.ack (List.mem_append_right _ List.mem_cons_self)
    rw [hsame]
    refine ⟨hacked, fun other hother => ?_⟩
    rw [hsame] at hother
    obtain rfl := Option.some.inj hother
    exact ⟨List.mem_append_right _ List.mem_cons_self, hgone⟩

theorem get_erased (ids : List JsString) (badged : OrdMap JsString (List UnreadEntry)) {id : JsString}
    {entries : List UnreadEntry} (h : (ids.foldl OrdMap.erase badged).get id = some entries) :
    badged.get id = some entries := by
  induction ids generalizing badged with
  | nil => exact h
  | cons gone rest ih => exact (OrdMap.get_erase_of_some (ih _ h)).2

/-- A list drops badges and moves nothing else of the queue. -/
theorem Books.listed (h : Books host s g) (sessions : List SessionSummary) :
    Books host (s.applySessionList sessions) g ∧ (s.applySessionList sessions).currentSessionId = s.currentSessionId ∧
      ∀ id, s.needsYou.get id = none → (s.applySessionList sessions).needsYou.get id = none := by
  unfold applySessionList
  split
  case isTrue =>
    have hnone : ∀ (id : JsString) (entries : List UnreadEntry), (OrdMap.empty : OrdMap JsString _).get id = some entries →
        s.needsYou.get id = some entries := fun id entries hget => by cases hget
    exact ⟨h.fewer rfl rfl hnone, rfl, fun _ _ => rfl⟩
  case isFalse =>
    refine ⟨h.fewer rfl rfl fun _ _ hget => get_erased _ _ hget, rfl, fun id hnone => ?_⟩
    by_contra hsome
    obtain ⟨entries, hentries⟩ := Option.ne_none_iff_exists'.mp hsome
    rw [get_erased _ _ hentries] at hnone
    cases hnone

theorem Kept.listed (h : Kept host s g) (sessions : List SessionSummary) :
    Kept host (loadSessions host s sessions)
      { g with viewed := g.viewed ++ (loadSessions host s sessions).currentSessionId.toList } := by
  obtain ⟨hbooks, hsame, hgone⟩ := h.toBooks.listed sessions
  have haway : ∀ id, (s.applySessionList sessions).currentSessionId = some id →
      (s.applySessionList sessions).needsYou.get id = none := fun id hid => hgone id (h.away id (hsame ▸ hid)).2
  simp only [loadSessions]
  split
  · exact Kept.selected hbooks haway _
  · refine ⟨?_, fun id hid => by cases hid⟩
    exact (hbooks.look []).fewer rfl rfl fun _ _ hget => hget
  · refine ⟨hbooks.look _, fun id hid => ⟨?_, haway id hid⟩⟩
    rw [hid]
    exact List.mem_append_right _ List.mem_cons_self

/-- A POST moves one acknowledgement from its loop to those posted. -/
theorem acks_post (s : NeedsYou) (loop : Nat) : (s.post loop).acks.Perm s.acks := by
  unfold post
  split
  case h_1 ack rest hloop =>
    obtain ⟨hlt, hget⟩ := List.getElem?_eq_some_iff.mp hloop
    have hsplit : s.acking = s.acking.take loop ++ (ack :: rest) :: s.acking.drop (loop + 1) := by
      rw [← hget, List.cons_getElem_drop_succ, List.take_append_drop]
    have hset : s.acking.set loop rest = s.acking.take loop ++ rest :: s.acking.drop (loop + 1) :=
      List.set_eq_take_append_cons_drop.trans (if_pos hlt)
    have hflat := congrArg List.flatten hsplit
    unfold acks
    rw [hset, hflat]
    simp only [List.flatten_append, List.flatten_cons, List.append_assoc, List.cons_append, List.nil_append]
    exact (List.perm_middle.symm).append_left s.posted
  case h_2 => exact List.Perm.refl _

theorem Kept.posted (h : Kept host s g) (loop : Nat) :
    Kept host (s.post loop) { g with viewed := g.viewed ++ (s.post loop).currentSessionId.toList } := by
  have hperm := acks_post s loop
  have hrest : (s.post loop).currentSessionId = s.currentSessionId ∧ (s.post loop).needsYou = s.needsYou ∧
      (s.post loop).ackedNeedsYou = s.ackedNeedsYou := by
    unfold post
    split <;> exact ⟨rfl, rfl, rfl⟩
  obtain ⟨hsame, hbadges, hacked⟩ := hrest
  have hbooks : Books host (s.post loop) g := by
    refine ⟨h.numbers, ?_, ?_, ?_, hperm.nodup_iff.mpr h.once⟩
    · intro id entries hget
      have hold := h.badged id entries (hbadges ▸ hget)
      exact ⟨hold.nonempty, hold.ordered, hold.own, hacked ▸ hold.unacked⟩
    · intro key
      rw [hacked, h.marked]
      exact exists_congr fun ack => and_congr_left fun _ => hperm.mem_iff.symm
    · exact fun ack hack => h.attended ack (hperm.mem_iff.mp hack)
  refine ⟨hbooks.look _, fun id hid => ⟨?_, ?_⟩⟩
  · exact List.mem_append_left _ (h.away id (hsame ▸ hid)).1
  · rw [hbadges]
    exact (h.away id (hsame ▸ hid)).2

theorem Kept.step (h : Kept host s g) {e : NeedsYouEvent} (he : answered host e) :
    Kept host (step host s e) (see host s e g) := by
  cases e with
  | reconciled payload => exact h.reconciled he
  | listed sessions => exact h.listed sessions
  | select id => exact Kept.selected h.toBooks (fun id hid => (h.away id hid).2) id
  | post loop => exact h.posted loop

theorem NeedsYouRun.kept {p : NeedsYou × Attended} (h : NeedsYouRun host p) : Kept host p.1 p.2 := by
  induction h with
  | start hstart =>
    subst hstart
    refine ⟨⟨?_, ?_, ?_, ?_, List.nodup_nil⟩, ?_⟩ <;> simp [new, acks]
  | step e _ he ih => exact ih.step he

/-! ## The badges and the acknowledgements -/

structure Lawful (s : NeedsYou) (g : Attended) : Prop where
  ordered : ∀ id entries, s.needsYou.get id = some entries →
    entries ≠ [] ∧ entries.Pairwise fun left right => left.eventId < right.eventId
  own : ∀ id entries, s.needsYou.get id = some entries → ∀ entry ∈ entries, entry.sessionId = id ∧ entry ∈ g.told
  unacked : ∀ id entries, s.needsYou.get id = some entries →
    ∀ entry ∈ entries, ⟨entry.sessionId, entry.eventId⟩ ∉ s.acks
  away : ∀ id, s.currentSessionId = some id → s.needsYou.get id = none
  attended : ∀ ack ∈ s.acks, ack.sessionId ∈ g.viewed ∧ ∃ entry ∈ g.told, needsYouAckBody entry = some ack
  once : s.acks.Nodup

/-- In every order of answers, lists, selections and POSTs. -/
theorem needsYou_lawful {p : NeedsYou × Attended} (h : NeedsYouRun host p) : Lawful p.1 p.2 := by
  have hkept := h.kept
  refine ⟨fun id entries hget => ?_, fun id entries hget => (hkept.badged id entries hget).own,
    fun id entries hget entry hentry hack => ?_, fun id hid => (hkept.away id hid).2, hkept.attended, hkept.once⟩
  · exact ⟨(hkept.badged id entries hget).nonempty, (hkept.badged id entries hget).ordered⟩
  · obtain ⟨key, hkey, hnot⟩ := (hkept.badged id entries hget).unacked entry hentry
    exact hnot ((hkept.marked key).mpr ⟨_, hack, (key_some hkey).2.symm⟩)

def waiting : List UnreadEntry :=
  [Server.asking (js "b") 4, Server.asking (js "a") 9, Server.asking (js "a") 2]

/-- Two sessions ask once and twice, the second is opened, and the queue comes in once more before the
    server has heard. -/
def askedAgain : List NeedsYouEvent := 
  [.reconciled (unreadJson waiting), .select (js "a"), .reconciled (unreadJson waiting)]

theorem run_askedAgain : NeedsYouRun integerHost
    (runFrom (watched (step integerHost) (see integerHost)) (new, ⟨[], []⟩) askedAgain) := by
  have hanswer : Answer integerHost (unreadJson waiting) := by
    constructor <;> decide +kernel
  have hstart : NeedsYouRun integerHost (new, ⟨[], []⟩) := .start rfl
  exact hstart.run_allowed ⟨hanswer, trivial, hanswer, trivial⟩

theorem needsYou_lawful_asked :
    let p := runFrom (watched (step integerHost) (see integerHost)) (new, ⟨[], []⟩) askedAgain
    p.1.needsYou.keys = [js "b"] ∧ p.1.posted = [⟨js "a", 2⟩] ∧ p.1.acks = [⟨js "a", 2⟩, ⟨js "a", 9⟩] ∧
      Lawful p.1 p.2 :=
  ⟨by decide +kernel, by decide +kernel, by decide +kernel, needsYou_lawful run_askedAgain⟩

/-! ## Against the server's queue -/

/-- What the server queues: a blocking event of a named session, under an event id. -/
structure Queued (host : JsonHost) (entry : UnreadEntry) : Prop where
  session : trim entry.sessionId ≠ []
  event : isEventId entry.eventId = true
  number : host.isNumber entry.eventId = true
  blocking : ∃ detail, entry.activity = .requiresAction detail

theorem decode_queued {entry : UnreadEntry} (h : Queued host entry) :
    decodeUnreadEntry (unreadEntryJson entry) = some entry := by
  obtain ⟨detail, hblocking⟩ := h.blocking
  obtain ⟨sessionId, eventId, atMs, activity⟩ := entry
  dsimp only at hblocking
  subst hblocking
  have hsession := h.session
  have hevent := h.event
  dsimp only at hsession hevent
  simp +decide [decodeUnreadEntry, unreadEntryJson, activityJson, requiresActionDetail, asEventId, Json.isPlainObject,
    Json.get_cons, Json.asString, hsession, hevent]

theorem reconciled_perm {unread : List UnreadEntry} (h : ∀ entry ∈ unread, Queued host entry) :
    (reconcileNeedsYou (unreadJson unread)).Perm unread := by
  have hdecoded : (unread.map unreadEntryJson).filterMap decodeUnreadEntry = unread := by
    rw [List.filterMap_map]
    exact (List.filterMap_congr fun entry hentry => decode_queued (h entry hentry)).trans List.filterMap_some
  have hread : (Json.asArray ((unreadJson unread).get (js "unread"))).getD [] = unread.map unreadEntryJson := by
    rw [unreadJson, Json.get_cons, if_pos rfl]
    rfl
  unfold reconcileNeedsYou
  rw [hread, hdecoded]
  exact List.perm_insertionSort _ _

theorem get_ack_other (s : NeedsYou) {id other : JsString} (hne : other ≠ id) :
    (ackNeedsYou host s id).needsYou.get other = s.needsYou.get other := by
  unfold ackNeedsYou
  split
  · rfl
  · rfl
  · exact OrdMap.get_erase_ne _ hne

/-- An event's key is marked exactly when its acknowledgement was made. -/
theorem Books.marked_iff (h : Books host s g) {entry : UnreadEntry} (hentry : Queued host entry) :
    (∃ key, needsYouKey host entry = some key ∧ key ∉ s.ackedNeedsYou) ↔ ⟨entry.sessionId, entry.eventId⟩ ∉ s.acks := by
  have hbody : needsYouAckBody entry = some ⟨entry.sessionId, entry.eventId⟩ := by
    unfold needsYouAckBody
    rw [if_neg]
    simp [hentry.session, hentry.event]
  have hkey : needsYouKey host entry = some (ackKey host ⟨entry.sessionId, entry.eventId⟩) := by
    rw [needsYouKey, hbody, Option.map_some]
  have hmarked : ackKey host ⟨entry.sessionId, entry.eventId⟩ ∈ s.ackedNeedsYou ↔
      ⟨entry.sessionId, entry.eventId⟩ ∈ s.acks := by
    rw [h.marked]
    refine ⟨fun ⟨ack, hack, hsame⟩ => ?_, fun hack => ⟨_, hack, rfl⟩⟩
    obtain ⟨-, told, htold, hmade⟩ := h.attended ack hack
    have hnumber : host.isNumber ack.eventId = true := by
      rw [ackBody_some hmade]
      exact h.numbers told htold
    exact ackKey_inj hnumber hentry.number hsame ▸ hack
  rw [hkey, ← not_congr hmarked]
  simp

/-- For a session out of view, the server's own reconcile of it less what the page acknowledged. -/
theorem badged_exact {p : NeedsYou × Attended} (h : NeedsYouRun host p) {unread : List UnreadEntry}
    (hqueued : ∀ entry ∈ unread, Queued host entry) (hdistinct : (unread.map UnreadEntry.key).Nodup) {id : JsString}
    (haway : p.1.currentSessionId ≠ some id) :
    ((step host p.1 (.reconciled (unreadJson unread))).needsYou.get id).getD [] =
      (reconcileUnread unread id).filter fun entry => ⟨entry.sessionId, entry.eventId⟩ ∉ p.1.acks := by
  have hkept := h.kept
  have hperm := reconciled_perm hqueued
  have hkeys : ((reconcileNeedsYou (unreadJson unread)).map UnreadEntry.key).Nodup :=
    (hperm.map UnreadEntry.key).nodup_iff.mpr hdistinct
  have hget : (step host p.1 (.reconciled (unreadJson unread))).needsYou.get id =
      (surfaceAll host p.1 (reconcileNeedsYou (unreadJson unread))).needsYou.get id := by
    show (reconcileNeedsYouQueue host p.1 _).needsYou.get id = _
    unfold reconcileNeedsYouQueue
    split
    case h_1 current hcurrent => exact get_ack_other _ fun hid => haway (hid ▸ hcurrent)
    case h_2 => rfl
  have hshown : ((surfaceAll host p.1 (reconcileNeedsYou (unreadJson unread))).needsYou.get id).getD [] =
      (reconcileNeedsYou (unreadJson unread)).filter (shows host p.1.ackedNeedsYou id) := by
    refine (congrArg (Option.getD · []) (get_surfaced_empty _ _ id)).trans ?_
    split
    case isTrue hnone => exact hnone.symm
    case isFalse => rfl
  rw [hget, hshown]
  have hleft : ((reconcileNeedsYou (unreadJson unread)).filter (shows host p.1.ackedNeedsYou id)).Pairwise
      fun left right => left.eventId < right.eventId := reconciled_strict hkeys _ _
  have hright := (reconcile_ordered hdistinct id).sublist
    (List.filter_sublist (p := fun entry => decide (⟨entry.sessionId, entry.eventId⟩ ∉ p.1.acks)))
  refine List.Perm.eq_of_pairwise (fun a b _ _ hab hba => absurd hab (lt_asymm hba)) hleft hright ?_
  refine (List.perm_ext_iff_of_nodup (hleft.imp fun hlt heq => ?_) (hright.imp fun hlt heq => ?_)).mpr fun entry => ?_
  · exact hlt.ne (congrArg UnreadEntry.eventId heq)
  · exact hlt.ne (congrArg UnreadEntry.eventId heq)
  · rw [List.mem_filter, List.mem_filter, hperm.mem_iff, mem_reconcile, shows_iff, decide_eq_true_eq, and_assoc]
    refine and_congr_right fun hentry => and_congr_right fun _ => hkept.marked_iff (hqueued entry hentry)

theorem badged_exact_asked :
    let p := runFrom (watched (step integerHost) (see integerHost)) (new, ⟨[], []⟩) askedAgain
    ((step integerHost p.1 (.reconciled (unreadJson waiting))).needsYou.get (js "b")).getD [] =
      (reconcileUnread waiting (js "b")).filter fun entry => ⟨entry.sessionId, entry.eventId⟩ ∉ p.1.acks := by
  have hqueued : ∀ entry ∈ waiting, Queued integerHost entry := by
    intro entry hentry
    have hfields : ∀ entry ∈ waiting, trim entry.sessionId ≠ [] ∧ isEventId entry.eventId = true ∧
        integerHost.isNumber entry.eventId = true ∧ entry.activity = .requiresAction (js "Go on?") := by
      decide +kernel
    obtain ⟨hsession, hevent, hnumber, hblocking⟩ := hfields entry hentry
    exact ⟨hsession, hevent, hnumber, _, hblocking⟩
  exact badged_exact run_askedAgain hqueued (by decide +kernel) (by decide +kernel)

end

end NeedsYou

end Ccctl.WebUi
