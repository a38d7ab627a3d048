import Ccctl.WebUi.Client
/-
  Ccctl.WebUi.Picker — the session picker, kept by in-place edits
  (`packages/web-ui/src/sessions.js`: `sessionLabel`, `diffSessionList`;
  `packages/web-ui/src/app.js`: `applySessionList`, `markSelected`, `renderNeedsYouBadges`).

  An element is a number, and `item` is what stands in it: an edit of a row writes the element it
  finds under the session's id in `sessionRows`, so a row that keeps its element is the same row
  to the focus that stands in it. `children` is the list as it stands in the document.

  `Tracks` is what the edits keep between one list and the next: the children are the tracked
  rows, each named by its session. With it the edits of a diff leave the latest list's rows, each
  with the latest label, and the last step puts them in the latest order (`picker_shows`). The rows
  a poll drops are the sessions whose cursors it drops (`diff_removed`).
-/

namespace Ccctl.WebUi

open Ccctl.Core Ccctl.Lib

/-! ## Labels and the diff -/

/-- A row of the polled list, with what the picker reads of it. -/
structure ListedSession extends SessionSummary where
  status : Option Json
  activity : Option Json
  autoResolvesPermissions : Option Json

def ACTIVITY_LABELS : List (JsString × JsString) :=
  [(js "running", js "running"), (js "requires_action", js "awaiting input"), (js "idle", js "idle")]

def activityLabel (activity : Option Json) : JsString :=
  match activity.bind fun value => Json.asString (value.get (js "kind")) with
  | none => js "unknown"
  | some kind => (ACTIVITY_LABELS.lookup kind).getD kind

def sessionLabel (session : ListedSession) : JsString :=
  session.id ++ js " — " ++ (Json.asString session.status).getD (js "unknown") ++ js " · " ++
    activityLabel session.activity

def autoResolvesPermissions (session : ListedSession) : Bool :=
  match session.autoResolvesPermissions with
  | some (.bool true) => true
  | _ => false

structure RowEdit where
  id : JsString
  label : JsString
  deriving DecidableEq

structure SessionListDiff where
  order : List JsString
  added : List RowEdit
  removed : List JsString
  updated : List RowEdit
  deriving DecidableEq

def rowEdit (session : ListedSession) : RowEdit := ⟨session.id, sessionLabel session⟩

/-- The labels by id; a later session of one id wins. -/
def labelsOf (sessions : List ListedSession) : OrdMap JsString JsString :=
  sessions.foldl (fun labels session => labels.set session.id (sessionLabel session)) .empty

def diffSessionList (previous next : List ListedSession) : SessionListDiff :=
  let previousLabels := labelsOf previous
  { order := next.map (·.id)
    added := (next.filter fun session => !previousLabels.has session.id).map rowEdit
    removed := previousLabels.keys.filter fun id => id ∉ next.map (·.id)
    updated := (next.filter fun session =>
      previousLabels.has session.id ∧ previousLabels.get session.id ≠ some (sessionLabel session)).map rowEdit }

/-! ## The list in the document -/

def DEFAULT_NEEDS_YOU_DETAIL : JsString := js "Awaiting input."

def needsYouDetail (entry : Json) : JsString :=
  match Json.asString ((entry.get (js "activity")).bind fun activity => activity.get (js "detail")) with
  | some detail => if trim detail = [] then DEFAULT_NEEDS_YOU_DETAIL else detail
  | none => DEFAULT_NEEDS_YOU_DETAIL

/-- An `li`: its session and its button's text, or the text of its own; its badges; its highlight. -/
structure ListItem where
  sessionId : Option JsString
  button : Option JsString
  text : JsString
  autoResolves : Bool
  needsYou : Option JsString
  selected : Bool
  deriving DecidableEq

structure Picker where
  client : Client
  item : Nat → ListItem
  created : Nat
  children : List Nat
  sessionRows : OrdMap JsString Nat
  renderedSessions : List ListedSession
  emptyPlaceholderShown : Bool
  needsYou : OrdMap JsString (List Json)

def createSessionRow (sessionId label : JsString) (autoResolves : Bool) : ListItem :=
  ⟨some sessionId, some label, [], autoResolves, none, false⟩

def emptyPlaceholder : ListItem := ⟨none, none, js "No sessions yet.", false, none, false⟩

namespace Picker

/-- The page as it loads. -/
def new : Picker := ⟨.new, fun _ => emptyPlaceholder, 0, [], .empty, [], false, .empty⟩

def create (s : Picker) (li : ListItem) : Picker :=
  { s with item := Function.update s.item s.created li, created := s.created + 1 }

def modifyItem (s : Picker) (n : Nat) (f : ListItem → ListItem) : Picker :=
  { s with item := Function.update s.item n (f (s.item n)) }

/-- A child that is appended again moves. -/
def appendChild (s : Picker) (n : Nat) : Picker := { s with children := s.children.filter (· ≠ n) ++ [n] }

def row (s : Picker) (id : JsString) : Option Nat := s.sessionRows.get id

def dropRow (s : Picker) (id : JsString) : Picker :=
  { s with
    children := s.children.filter fun n => s.row id ≠ some n
    sessionRows := s.sessionRows.erase id
    needsYou := s.needsYou.erase id }

def addRow (byId : OrdMap JsString ListedSession) (s : Picker) (edit : RowEdit) : Picker :=
  let li := s.created
  let s := s.create (createSessionRow edit.id edit.label ((byId.get edit.id).any autoResolvesPermissions))
  { s with sessionRows := s.sessionRows.set edit.id li }.appendChild li

def relabelRow (s : Picker) (edit : RowEdit) : Picker :=
  match s.row edit.id with
  | some n => s.modifyItem n fun li => { li with button := li.button.map fun _ => edit.label }
  | none => s

def placeRow (s : Picker) (id : JsString) : Picker :=
  match s.row id with
  | some n => s.appendChild n
  | none => s

def reorderRows (s : Picker) (order : List JsString) : Picker :=
  let domOrder := s.children.map fun n => (s.item n).sessionId
  if domOrder = order.map some then s else order.foldl placeRow s

def markSelected (s : Picker) : Picker :=
  s.children.foldl (fun s n => s.modifyItem n fun li =>
    { li with selected := li.sessionId.isSome ∧ li.sessionId = s.client.currentSessionId }) s

def renderNeedsYouBadges (s : Picker) : Picker :=
  s.sessionRows.entries.foldl (fun s row => s.modifyItem row.2 fun li =>
    { li with needsYou := (s.needsYou.get row.1).bind fun entries => entries.getLast?.map needsYouDetail }) s

def showPlaceholder (s : Picker) : Picker :=
  { s.create emptyPlaceholder with sessionRows := .empty, children := [s.created], emptyPlaceholderShown := true }

def clearPlaceholder (s : Picker) : Picker :=
  if s.emptyPlaceholderShown then { s with children := [], emptyPlaceholderShown := false } else s

/-- The edits of a diff. -/
def edited (s : Picker) (sessions : List ListedSession) : Picker :=
  let diff := diffSessionList s.renderedSessions sessions
  let byId := sessions.foldl (fun byId session => byId.set session.id session) OrdMap.empty
  let s := diff.removed.foldl dropRow s
  let s := diff.added.foldl (addRow byId) s
  let s := diff.updated.foldl relabelRow s
  s.reorderRows diff.order

def applySessionList (s : Picker) (sessions : List ListedSession) : Picker :=
  let s := { s with client := Ccctl.WebUi.applySessionList s.client (sessions.map ListedSession.toSessionSummary) }
  if sessions = [] then
    let s := if s.emptyPlaceholderShown then s else s.showPlaceholder
    { s with renderedSessions := [], needsYou := .empty }
  else
    ({ s.clearPlaceholder.edited sessions with renderedSessions := sessions }.markSelected).renderNeedsYouBadges

/-! ## The page's events -/

/-- A poll's list, and what else writes the rows: a reconcile of the unread queue, an
    acknowledgement of a session's entries, a selection made or dropped. -/
inductive Event where
  | poll (sessions : List ListedSession)
  | reconciled (needsYou : OrdMap JsString (List Json))
  | ack (sessionId : JsString)
  | select (sessionId : JsString)
  | clear

def step (s : Picker) : Event → Picker
  | .poll sessions => s.applySessionList sessions
  | .reconciled needsYou => { s with needsYou := needsYou }.renderNeedsYouBadges
  | .ack sessionId => { s with needsYou := s.needsYou.erase sessionId }.renderNeedsYouBadges
  | .select sessionId => { s with client := selectSession s.client sessionId }.markSelected
  | .clear => { s with client := applySelection s.client .clear }.markSelected

def after (events : List Event) : Picker := events.foldl step new

def Event.polled : Event → Option (List ListedSession)
  | .poll sessions => some sessions
  | _ => none

/-- The latest list. -/
def latest (events : List Event) : Option (List ListedSession) := (events.filterMap Event.polled).getLast?

/-- The rows as they stand: each one's session and its button's text. -/
def shown (s : Picker) : List (Option JsString × Option JsString) :=
  s.children.map fun n => ((s.item n).sessionId, (s.item n).button)

/-- The rows of a list built anew. -/
def rebuilt : Option (List ListedSession) → List (Option JsString × Option JsString)
  | none => []
  | some [] => [(emptyPlaceholder.sessionId, emptyPlaceholder.button)]
  | some sessions => sessions.map fun session => (some session.id, some (sessionLabel session))

def RowAt (s : Picker) (n : Nat) (id : JsString) : Prop := n ∈ s.children ∧ (s.item n).sessionId = some id

/-! ## What an edit leaves -/

def label (s : Picker) (id : JsString) : Option JsString := (s.row id).bind fun n => (s.item n).button

/-- The children are the tracked rows of these sessions, each in an element of its own. -/
structure Tracks (s : Picker) (live : JsString → Prop) : Prop where
  tracked : ∀ id, (∃ n, s.row id = some n) ↔ live id
  named : ∀ id n, s.row id = some n → (s.item n).sessionId = some id ∧ (s.item n).button.isSome
  minted : ∀ id n, s.row id = some n → n < s.created
  children : ∀ n ∈ s.children, ∃ id, s.row id = some n

section
variable {s : Picker} {live : JsString → Prop}

theorem Tracks.inj (h : s.Tracks live) {id id' : JsString} {n : Nat} (hid : s.row id = some n)
    (hid' : s.row id' = some n) : id = id' := by
  have hname := (h.named id n hid).1
  rw [(h.named id' n hid').1] at hname
  exact (Option.some.inj hname).symm

theorem dropRow_row (s : Picker) (id other : JsString) :
    (s.dropRow id).row other = if other = id then none else s.row other := OrdMap.get_erase _ _ _

theorem tracks_dropRow (h : s.Tracks live) (id : JsString) :
    (s.dropRow id).Tracks fun other => live other ∧ other ≠ id := by
  have hrow : ∀ other n, (s.dropRow id).row other = some n ↔ s.row other = some n ∧ other ≠ id := by
    intro other n
    rw [dropRow_row]
    split
    · rename_i heq
      exact ⟨fun hnone => (nomatch hnone), fun hne => absurd heq hne.2⟩
    · rename_i hne
      exact (and_iff_left hne).symm
  refine ⟨fun other => ?_, fun other n hn => ?_, fun other n hn => ?_, fun n hn => ?_⟩
  · simp only [hrow, exists_and_right, h.tracked]
  · exact h.named other n ((hrow other n).mp hn).1
  · exact h.minted other n ((hrow other n).mp hn).1
  · obtain ⟨hchild, hnot⟩ := List.mem_filter.mp hn
    obtain ⟨other, hother⟩ := h.children n hchild
    refine ⟨other, (hrow other n).mpr ⟨hother, ?_⟩⟩
    intro hsame
    subst hsame
    simp [hother] at hnot

theorem label_dropRow (s : Picker) {id other : JsString} (hne : other ≠ id) :
    (s.dropRow id).row other = s.row other ∧ (s.dropRow id).label other = s.label other := by
  have hrow : (s.dropRow id).row other = s.row other := by rw [dropRow_row, if_neg hne]
  exact ⟨hrow, by rw [label, label, hrow]; rfl⟩

theorem addRow_row (byId : OrdMap JsString ListedSession) (s : Picker) (edit : RowEdit) (other : JsString) :
    (s.addRow byId edit).row other = if other = edit.id then some s.created else s.row other := OrdMap.get_set _ _ _ _

theorem tracks_addRow (h : s.Tracks live) (byId : OrdMap JsString ListedSession) (edit : RowEdit)
    (hnew : ¬ live edit.id) :
    (s.addRow byId edit).Tracks fun other => live other ∨ other = edit.id := by
  have hold : ∀ other n, s.row other = some n → other ≠ edit.id ∧ n ≠ s.created := by
    intro other n hn
    refine ⟨?_, (h.minted other n hn).ne⟩
    intro hsame
    subst hsame
    exact hnew ((h.tracked _).mp ⟨n, hn⟩)
  have hrow : ∀ other n, (s.addRow byId edit).row other = some n →
      other = edit.id ∧ n = s.created ∨ s.row other = some n := by
    intro other n hn
    rw [addRow_row] at hn
    split at hn
    · rename_i heq
      exact .inl ⟨heq, (Option.some.inj hn).symm⟩
    · exact .inr hn
  refine ⟨fun other => ?_, fun other n hn => ?_, fun other n hn => ?_, fun n hn => ?_⟩
  · rw [addRow_row]
    split
    · rename_i heq
      exact iff_of_true ⟨_, rfl⟩ (.inr heq)
    · rename_i hne
      rw [h.tracked, or_iff_left hne]
  · rcases hrow other n hn with ⟨rfl, rfl⟩ | hrow
    · simp [addRow, create, appendChild, createSessionRow]
    · have hne := (hold other n hrow).2
      simpa [addRow, create, appendChild, hne] using h.named other n hrow
  · rcases hrow other n hn with ⟨-, rfl⟩ | hrow
    · exact Nat.lt_succ_self _
    · exact Nat.lt_succ_of_lt (h.minted other n hrow)
  · have hchild : n ∈ s.children ∨ n = s.created := by
      rcases List.mem_append.mp hn with hchild | hlast
      · exact .inl (List.mem_filter.mp hchild).1
      · exact .inr (List.mem_singleton.mp hlast)
    rcases hchild with hchild | rfl
    · obtain ⟨other, hother⟩ := h.children n hchild
      exact ⟨other, by rw [addRow_row, if_neg (hold other n hother).1, hother]⟩
    · exact ⟨edit.id, by rw [addRow_row, if_pos rfl]⟩

theorem label_addRow (h : s.Tracks live) (byId : OrdMap JsString ListedSession) (edit : RowEdit) {other : JsString}
    (hne : other ≠ edit.id) :
    (s.addRow byId edit).row other = s.row other ∧ (s.addRow byId edit).label other = s.label other := by
  have hrow : (s.addRow byId edit).row other = s.row other := by rw [addRow_row, if_neg hne]
  refine ⟨hrow, ?_⟩
  rw [label, label, hrow]
  cases hn : s.row other with
  | none => rfl
  | some n =>
    have hminted := (h.minted other n hn).ne
    simp [addRow, create, appendChild, hminted]

theorem label_addRow_self (byId : OrdMap JsString ListedSession) (s : Picker) (edit : RowEdit) :
    (s.addRow byId edit).label edit.id = some edit.label := by
  rw [label, addRow_row, if_pos rfl]
  simp [addRow, create, appendChild, createSessionRow]

theorem tracks_relabelRow (h : s.Tracks live) (edit : RowEdit) : (s.relabelRow edit).Tracks live := by
  unfold relabelRow
  split
  · rename_i n hn
    refine ⟨h.tracked, fun other m hm => ?_, h.minted, h.children⟩
    have hnamed := h.named other m hm
    by_cases hsame : m = n
    · subst hsame
      simpa [modifyItem] using hnamed
    · simpa [modifyItem, hsame] using hnamed
  · exact h

theorem label_relabelRow (h : s.Tracks live) (edit : RowEdit) {other : JsString} (hne : other ≠ edit.id) :
    (s.relabelRow edit).row other = s.row other ∧ (s.relabelRow edit).label other = s.label other := by
  unfold relabelRow
  split
  · rename_i n hn
    refine ⟨rfl, ?_⟩
    have hother : s.row other ≠ some n := fun hsame => hne (h.inj hsame hn)
    cases hm : s.row other with
    | none =>
      simp only [label, row] at hm ⊢
      simp [modifyItem, hm]
    | some m =>
      have hdistinct : m ≠ n := by
        intro heq
        subst heq
        exact hother hm
      simp only [label, row] at hm ⊢
      simp [modifyItem, hm, hdistinct]
  · exact ⟨rfl, rfl⟩

theorem label_relabelRow_self (h : s.Tracks live) (edit : RowEdit) (hlive : live edit.id) :
    (s.relabelRow edit).row edit.id = s.row edit.id ∧ (s.relabelRow edit).label edit.id = some edit.label := by
  obtain ⟨n, hn⟩ := (h.tracked edit.id).mpr hlive
  obtain ⟨old, hold⟩ := Option.isSome_iff_exists.mp (h.named _ n hn).2
  have hrow : s.sessionRows.get edit.id = some n := hn
  simp [relabelRow, label, row, modifyItem, hrow, hold]

theorem Tracks.congr {live' : JsString → Prop} (h : s.Tracks live) (hiff : ∀ id, live id ↔ live' id) : s.Tracks live' :=
  ⟨fun id => (h.tracked id).trans (hiff id), h.named, h.minted, h.children⟩

/-! ## What the edits of a diff leave -/

theorem dropRows (h : s.Tracks live) (ids : List JsString) :
    (ids.foldl dropRow s).Tracks (fun other => live other ∧ other ∉ ids) ∧
      ∀ other ∉ ids,
        (ids.foldl dropRow s).row other = s.row other ∧ (ids.foldl dropRow s).label other = s.label other := by
  induction ids generalizing s live with
  | nil => exact ⟨h.congr fun _ => by simp, fun _ _ => ⟨rfl, rfl⟩⟩
  | cons id rest ih =>
    obtain ⟨htracks, hsame⟩ := ih (tracks_dropRow h id)
    refine ⟨htracks.congr fun other => ?_, fun other hother => ?_⟩
    · rw [List.mem_cons, not_or, and_assoc]
    · obtain ⟨hne, hrest⟩ := List.ne_and_not_mem_of_not_mem_cons hother
      obtain ⟨hrow, hlabel⟩ := label_dropRow s hne
      exact ⟨(hsame other hrest).1.trans hrow, (hsame other hrest).2.trans hlabel⟩

theorem addRows (h : s.Tracks live) (byId : OrdMap JsString ListedSession) (edits : List RowEdit)
    (hdistinct : (edits.map RowEdit.id).Nodup) (hnew : ∀ edit ∈ edits, ¬ live edit.id) :
    (edits.foldl (addRow byId) s).Tracks (fun other => live other ∨ other ∈ edits.map RowEdit.id) ∧
      (∀ other ∉ edits.map RowEdit.id, (edits.foldl (addRow byId) s).row other = s.row other ∧
        (edits.foldl (addRow byId) s).label other = s.label other) ∧
      ∀ edit ∈ edits, (edits.foldl (addRow byId) s).label edit.id = some edit.label := by
  induction edits generalizing s live with
  | nil => exact ⟨h.congr fun _ => by simp, fun _ _ => ⟨rfl, rfl⟩, fun edit hedit => nomatch hedit⟩
  | cons edit rest ih =>
    obtain ⟨hfirst, hrest⟩ := List.nodup_cons.mp hdistinct
    have hlater : ∀ other ∈ rest, ¬ (live other.id ∨ other.id = edit.id) := by
      intro other hother hor
      refine hor.elim (hnew other (List.mem_cons_of_mem _ hother)) fun heq => hfirst ?_
      exact List.mem_map.mpr ⟨other, hother, heq⟩
    obtain ⟨htracks, hsame, hlabels⟩ := ih (tracks_addRow h byId edit (hnew edit List.mem_cons_self)) hrest hlater
    refine ⟨htracks.congr fun other => ?_, fun other hother => ?_, List.forall_mem_cons.mpr ⟨?_, hlabels⟩⟩
    · rw [List.map_cons, List.mem_cons, or_assoc]
    · obtain ⟨hne, hother⟩ := List.ne_and_not_mem_of_not_mem_cons hother
      obtain ⟨hrow, hlabel⟩ := label_addRow h byId edit hne
      exact ⟨(hsame other hother).1.trans hrow, (hsame other hother).2.trans hlabel⟩
    · exact (hsame edit.id hfirst).2.trans (label_addRow_self byId s edit)

theorem relabelRows (h : s.Tracks live) (edits : List RowEdit) (hdistinct : (edits.map RowEdit.id).Nodup)
    (hlive : ∀ edit ∈ edits, live edit.id) :
    (edits.foldl relabelRow s).Tracks live ∧
      (∀ other, (edits.foldl relabelRow s).row other = s.row other) ∧
      (∀ other ∉ edits.map RowEdit.id, (edits.foldl relabelRow s).label other = s.label other) ∧
      ∀ edit ∈ edits, (edits.foldl relabelRow s).label edit.id = some edit.label := by
  induction edits generalizing s with
  | nil => exact ⟨h, fun _ => rfl, fun _ _ => rfl, fun edit hedit => nomatch hedit⟩
  | cons edit rest ih =>
    obtain ⟨hfirst, hrest⟩ := List.nodup_cons.mp hdistinct
    obtain ⟨hself, hlabel⟩ := label_relabelRow_self h edit (hlive edit List.mem_cons_self)
    obtain ⟨htracks, hrows, hsame, hlabels⟩ :=
      ih (tracks_relabelRow h edit) hrest fun other hother => hlive other (List.mem_cons_of_mem _ hother)
    refine ⟨htracks, fun other => (hrows other).trans ?_, fun other hother => ?_,
      List.forall_mem_cons.mpr ⟨(hsame edit.id hfirst).trans hlabel, hlabels⟩⟩
    · by_cases hother : other = edit.id
      · rw [hother, hself]
      · exact (label_relabelRow h edit hother).1
    · obtain ⟨hne, hother⟩ := List.ne_and_not_mem_of_not_mem_cons hother
      exact (hsame other hother).trans (label_relabelRow h edit hne).2

/-- Moving distinct elements to the end, one after the other. -/
theorem moved_to_end {nodes : List Nat} (h : nodes.Nodup) (children : List Nat) :
    nodes.foldl (fun children n => children.filter (· ≠ n) ++ [n]) children =
      children.filter (· ∉ nodes) ++ nodes := by
  induction nodes generalizing children with
  | nil => simp
  | cons n rest ih =>
    obtain ⟨hnot, hrest⟩ := List.nodup_cons.mp h
    have hkept : (children.filter (· ≠ n)).filter (· ∉ rest) = children.filter (· ∉ n :: rest) := by
      rw [List.filter_filter]
      refine List.filter_congr fun m _ => ?_
      simp [Bool.and_comm]
    rw [List.foldl_cons, ih hrest, List.filter_append, hkept, List.filter_singleton]
    simp [hnot]

theorem placeRows (s : Picker) (order : List JsString) :
    order.foldl placeRow s =
      { s with children :=
          (order.filterMap s.row).foldl (fun children n => children.filter (· ≠ n) ++ [n]) s.children } := by
  induction order generalizing s with
  | nil => rfl
  | cons id rest ih =>
    cases hrow : s.row id with
    | none =>
      have hstill : s.placeRow id = s := by rw [placeRow, hrow]
      rw [List.foldl_cons, hstill, ih, List.filterMap_cons_none hrow]
    | some n =>
      have hplaced : s.placeRow id = s.appendChild n := by rw [placeRow, hrow]
      have hrows : (s.appendChild n).row = s.row := rfl
      rw [List.foldl_cons, hplaced, ih, List.filterMap_cons_some hrow, hrows]
      rfl

/-- The last step leaves the tracked rows in the order of the list. -/
theorem reorderRows_eq (h : s.Tracks live) {order : List JsString} (hdistinct : order.Nodup)
    (hlive : ∀ id, live id ↔ id ∈ order) : s.reorderRows order = { s with children := order.filterMap s.row } := by
  unfold reorderRows
  dsimp only
  split
  · rename_i hdom
    have hself : s.children.filterMap some =
        s.children.filterMap ((fun id => id.bind s.row) ∘ fun n => (s.item n).sessionId) := by
      refine List.filterMap_congr fun n hn => ?_
      obtain ⟨id, hid⟩ := h.children n hn
      simp [(h.named id n hid).1, hid]
    have hchildren : s.children = order.filterMap s.row := by
      rw [List.filterMap_some, ← List.filterMap_map, hdom, List.filterMap_map] at hself
      exact hself
    rw [← hchildren]
  · have hnodes : (order.filterMap s.row).Nodup :=
      hdistinct.filterMap fun id id' n hid hid' => h.inj hid hid'
    have hnone : s.children.filter (· ∉ order.filterMap s.row) = [] := by
      refine List.filter_eq_nil_iff.mpr fun n hn => ?_
      obtain ⟨id, hid⟩ := h.children n hn
      have hmem : n ∈ order.filterMap s.row :=
        List.mem_filterMap.mpr ⟨id, (hlive id).mp ((h.tracked id).mp ⟨n, hid⟩), hid⟩
      simpa using List.mem_filterMap.mp hmem
    rw [placeRows, moved_to_end hnodes, hnone, List.nil_append]

end

end Picker

/-! ## The diff -/

theorem labelsOf_append (sessions : List ListedSession) (session : ListedSession) :
    labelsOf (sessions ++ [session]) = (labelsOf sessions).set session.id (sessionLabel session) := by
  rw [labelsOf, List.foldl_concat, labelsOf]

theorem labelsOf_has (sessions : List ListedSession) (id : JsString) :
    (labelsOf sessions).has id = true ↔ id ∈ sessions.map (·.id) := by
  induction sessions using List.reverseRecOn with
  | nil => simp [labelsOf, OrdMap.has]
  | append_singleton sessions session ih =>
    rw [OrdMap.has_eq_true] at ih ⊢
    rw [labelsOf_append, OrdMap.get_set, List.map_append, List.mem_append, List.map_singleton, List.mem_singleton]
    split
    · rename_i heq
      exact iff_of_true ⟨_, rfl⟩ (.inr heq)
    · rename_i hne
      rw [ih, or_iff_left hne]

theorem labelsOf_get {sessions : List ListedSession} (h : (sessions.map (·.id)).Nodup) {session : ListedSession}
    (hsession : session ∈ sessions) : (labelsOf sessions).get session.id = some (sessionLabel session) := by
  induction sessions using List.reverseRecOn with
  | nil => cases hsession
  | append_singleton sessions last ih =>
    rw [List.map_append, List.map_singleton] at h
    obtain ⟨hfirst, -, hapart⟩ := List.nodup_append.mp h
    rw [labelsOf_append]
    rcases List.mem_append.mp hsession with hmem | hlast
    · have hne : session.id ≠ last.id := hapart _ (List.mem_map.mpr ⟨session, hmem, rfl⟩) _ (by simp)
      rw [OrdMap.get_set_ne _ _ hne, ih hfirst hmem]
    · obtain rfl := List.mem_singleton.mp hlast
      rw [OrdMap.get_set_self]

section
variable {previous next : List ListedSession}

theorem mem_removed {id : JsString} :
    id ∈ (diffSessionList previous next).removed ↔ id ∈ previous.map (·.id) ∧ id ∉ next.map (·.id) := by
  rw [diffSessionList, List.mem_filter, decide_eq_true_eq, OrdMap.mem_keys, ← OrdMap.has_eq_true, labelsOf_has]

theorem mem_added {edit : RowEdit} :
    edit ∈ (diffSessionList previous next).added ↔
      ∃ session ∈ next, session.id ∉ previous.map (·.id) ∧ rowEdit session = edit := by
  simp only [diffSessionList, List.mem_map, List.mem_filter, Bool.not_eq_true', ← Bool.not_eq_true, labelsOf_has,
    and_assoc]

theorem mem_updated {edit : RowEdit} :
    edit ∈ (diffSessionList previous next).updated ↔
      ∃ session ∈ next, session.id ∈ previous.map (·.id) ∧
        (labelsOf previous).get session.id ≠ some (sessionLabel session) ∧ rowEdit session = edit := by
  simp only [diffSessionList, List.mem_map, List.mem_filter, decide_eq_true_eq, labelsOf_has, and_assoc]

theorem mem_added_ids {id : JsString} :
    id ∈ (diffSessionList previous next).added.map RowEdit.id ↔ id ∈ next.map (·.id) ∧ id ∉ previous.map (·.id) := by
  rw [List.mem_map]
  constructor
  · intro hex
    obtain ⟨edit, hedit, rfl⟩ := hex
    obtain ⟨session, hsession, hnew, rfl⟩ := mem_added.mp hedit
    exact ⟨List.mem_map.mpr ⟨session, hsession, rfl⟩, hnew⟩
  · intro hboth
    obtain ⟨hnext, hnew⟩ := hboth
    obtain ⟨session, hsession, rfl⟩ := List.mem_map.mp hnext
    exact ⟨rowEdit session, mem_added.mpr ⟨session, hsession, hnew, rfl⟩, rfl⟩

/-- Where ids are unique, a listed session is relabelled exactly if it was there under another label. -/
theorem mem_updated_ids (h : (next.map (·.id)).Nodup) {session : ListedSession} (hsession : session ∈ next) :
    session.id ∈ (diffSessionList previous next).updated.map RowEdit.id ↔
      session.id ∈ previous.map (·.id) ∧ (labelsOf previous).get session.id ≠ some (sessionLabel session) := by
  rw [List.mem_map]
  constructor
  · intro hex
    obtain ⟨edit, hedit, hid⟩ := hex
    obtain ⟨other, hother, hold, hdiffers, rfl⟩ := mem_updated.mp hedit
    obtain rfl : other = session := List.inj_on_of_nodup_map h hother hsession hid
    exact ⟨hold, hdiffers⟩
  · intro hboth
    obtain ⟨hold, hdiffers⟩ := hboth
    exact ⟨rowEdit session, mem_updated.mpr ⟨session, hsession, hold, hdiffers, rfl⟩, rfl⟩

theorem labelsOf_keys {sessions : List ListedSession} (h : (sessions.map (·.id)).Nodup) :
    (labelsOf sessions).keys = sessions.map (·.id) := by
  induction sessions using List.reverseRecOn with
  | nil => rfl
  | append_singleton sessions last ih =>
    rw [List.map_append, List.map_singleton] at h
    obtain ⟨hfirst, -, hapart⟩ := List.nodup_append.mp h
    have hnew : (labelsOf sessions).get last.id = none := by
      rw [← OrdMap.has_eq_false, ← Bool.not_eq_true, labelsOf_has]
      exact fun hmem => hapart _ hmem _ (List.mem_singleton_self _) rfl
    have hkeys : ((labelsOf sessions).set last.id (sessionLabel last)).keys =
        (labelsOf sessions).keys ++ [last.id] := by
      rw [OrdMap.set, dif_pos hnew]
      simp [OrdMap.keys]
    rw [labelsOf_append, hkeys, ih hfirst, List.map_append, List.map_singleton]

/-- The sessions whose cursors a poll drops are the ones whose rows it drops. -/
theorem diff_removed (h : (previous.map (·.id)).Nodup) :
    (diffSessionList previous next).removed =
      removedSessions (previous.map ListedSession.toSessionSummary) (next.map ListedSession.toSessionSummary) := by
  rw [diffSessionList, removedSessions, labelsOf_keys h, List.map_map, List.map_map]
  rfl

theorem edits_distinct (h : (next.map (·.id)).Nodup) (p : ListedSession → Bool) :
    (((next.filter p).map rowEdit).map RowEdit.id).Nodup := by
  rw [List.map_map]
  exact h.sublist (List.filter_sublist.map _)

end

namespace Picker

/-! ## One poll -/

/-- The rows of the list last polled, in its order and with its labels. -/
structure Shows (s : Picker) (sessions : List ListedSession) : Prop where
  unique : (sessions.map (·.id)).Nodup
  tracks : s.Tracks (· ∈ sessions.map (·.id))
  labels : ∀ session ∈ sessions, s.label session.id = some (sessionLabel session)
  children : s.children = (sessions.map (·.id)).filterMap s.row

theorem Shows.empty {s : Picker} (hrows : s.sessionRows = .empty) (hchildren : s.children = []) : s.Shows [] where
  unique := List.nodup_nil
  tracks := by
    have hnone : ∀ id, s.row id = none := by
      intro id
      rw [row, hrows]
      rfl
    exact ⟨fun id => by simp [hnone], fun id n hn => by simp [hnone] at hn, fun id n hn => by simp [hnone] at hn,
      fun n hn => by simp [hchildren] at hn⟩
  labels session hsession := nomatch hsession
  children := hchildren

theorem mem_ids {sessions : List ListedSession} {session : ListedSession} (h : session ∈ sessions) :
    session.id ∈ sessions.map (·.id) := List.mem_map.mpr ⟨session, h, rfl⟩

/-- What the edits leave under a session of the latest list: an added row's label, an updated row's
    label, or the label that did not change. -/
theorem edited_shows {s : Picker} (h : s.Shows s.renderedSessions) {next : List ListedSession}
    (hunique : (next.map (·.id)).Nodup) :
    (s.edited next).Shows next ∧
      ∀ id ∈ s.renderedSessions.map (·.id), id ∈ next.map (·.id) → (s.edited next).row id = s.row id := by
  dsimp only [edited]
  generalize next.foldl (fun byId session => byId.set session.id session) OrdMap.empty = byId
  have hremoved : ∀ id, id ∈ (diffSessionList s.renderedSessions next).removed ↔
      id ∈ s.renderedSessions.map (·.id) ∧ id ∉ next.map (·.id) := fun _ => mem_removed
  have hadded : ∀ id, id ∈ (diffSessionList s.renderedSessions next).added.map RowEdit.id ↔
      id ∈ next.map (·.id) ∧ id ∉ s.renderedSessions.map (·.id) := fun _ => mem_added_ids
  obtain ⟨hdropped, hkept⟩ := dropRows h.tracks (diffSessionList s.renderedSessions next).removed
  obtain ⟨htracked, hstood, hborn⟩ := addRows hdropped byId (diffSessionList s.renderedSessions next).added
    (edits_distinct hunique _) fun edit hedit hlive =>
      ((hadded edit.id).mp (List.mem_map.mpr ⟨edit, hedit, rfl⟩)).2 hlive.1
  generalize (diffSessionList s.renderedSessions next).removed.foldl dropRow s = dropped at *
  generalize (diffSessionList s.renderedSessions next).added.foldl (addRow byId) dropped = grown at *
  have hgrown : grown.Tracks (· ∈ next.map (·.id)) := by
    refine htracked.congr fun id => ?_
    rw [hremoved, hadded, not_and, not_not]
    by_cases hold : id ∈ s.renderedSessions.map (·.id)
    · simp [hold]
    · simp [hold]
  obtain ⟨htracks, hrows, hstill, hupdated⟩ := relabelRows hgrown (diffSessionList s.renderedSessions next).updated
    (edits_distinct hunique _) fun edit hedit => by
      obtain ⟨session, hsession, -, -, rfl⟩ := mem_updated.mp hedit
      exact mem_ids hsession
  -- a session of both lists keeps its row, and its label up to the relabelling
  have hsame : ∀ id ∈ s.renderedSessions.map (·.id), id ∈ next.map (·.id) →
      grown.row id = s.row id ∧ grown.label id = s.label id := by
    intro id hold hnext
    obtain ⟨hrow, hlabel⟩ := hstood id fun hnew => ((hadded id).mp hnew).2 hold
    obtain ⟨hrow', hlabel'⟩ := hkept id fun hgone => ((hremoved id).mp hgone).2 hnext
    exact ⟨hrow.trans hrow', hlabel.trans hlabel'⟩
  generalize hrelabelled : (diffSessionList s.renderedSessions next).updated.foldl relabelRow grown = relabelled at *
  have hreorder : relabelled.reorderRows (diffSessionList s.renderedSessions next).order =
      { relabelled with children := (next.map (·.id)).filterMap relabelled.row } :=
    reorderRows_eq htracks hunique fun id => Iff.rfl
  rw [hreorder]
  refine ⟨⟨hunique, ⟨htracks.tracked, htracks.named, htracks.minted, fun n hn => ?_⟩, fun session hsession => ?_, rfl⟩,
    fun id hold hnext => (hrows id).trans (hsame id hold hnext).1⟩
  · obtain ⟨id, -, hid⟩ := List.mem_filterMap.mp hn
    exact ⟨id, hid⟩
  · have hnext := mem_ids hsession
    by_cases hold : session.id ∈ s.renderedSessions.map (·.id)
    · by_cases hmoved : (labelsOf s.renderedSessions).get session.id = some (sessionLabel session)
      · have hnot := fun hmem => ((mem_updated_ids hunique hsession).mp hmem).2 hmoved
        obtain ⟨before, hbefore, hid⟩ := List.mem_map.mp hold
        have hlabel := h.labels before hbefore
        rw [← labelsOf_get h.unique hbefore, hid, hmoved] at hlabel
        exact ((hstill _ hnot).trans (hsame _ hold hnext).2).trans hlabel
      · exact hupdated (rowEdit session) (mem_updated.mpr ⟨session, hsession, hold, hmoved, rfl⟩)
    · have hnot := fun hmem => hold ((mem_updated_ids hunique hsession).mp hmem).1
      exact (hstill _ hnot).trans (hborn (rowEdit session) (mem_added.mpr ⟨session, hsession, hold, rfl⟩))

/-! ## Badges and highlights move no row -/

structure SameRows (s t : Picker) : Prop where
  children : t.children = s.children
  rows : t.sessionRows = s.sessionRows
  created : t.created = s.created
  rendered : t.renderedSessions = s.renderedSessions
  placeholder : t.emptyPlaceholderShown = s.emptyPlaceholderShown
  faces : ∀ n, (t.item n).sessionId = (s.item n).sessionId ∧ (t.item n).button = (s.item n).button

theorem SameRows.refl (s : Picker) : SameRows s s := ⟨rfl, rfl, rfl, rfl, rfl, fun _ => ⟨rfl, rfl⟩⟩

theorem SameRows.trans {s t u : Picker} (h : SameRows s t) (h' : SameRows t u) : SameRows s u :=
  ⟨h'.children.trans h.children, h'.rows.trans h.rows, h'.created.trans h.created, h'.rendered.trans h.rendered,
    h'.placeholder.trans h.placeholder,
    fun n => ⟨(h'.faces n).1.trans (h.faces n).1, (h'.faces n).2.trans (h.faces n).2⟩⟩

theorem SameRows.aside (s : Picker) (client : Client) (needsYou : OrdMap JsString (List Json)) :
    SameRows s { s with client := client, needsYou := needsYou } :=
  ⟨rfl, rfl, rfl, rfl, rfl, fun _ => ⟨rfl, rfl⟩⟩

theorem modifyItem_same (s : Picker) (n : Nat) (f : ListItem → ListItem)
    (hf : ∀ li, (f li).sessionId = li.sessionId ∧ (f li).button = li.button) : SameRows s (s.modifyItem n f) := by
  refine ⟨rfl, rfl, rfl, rfl, rfl, fun m => ?_⟩
  by_cases hm : m = n
  · subst hm
    simpa [modifyItem] using hf (s.item m)
  · simp [modifyItem, hm]

theorem foldl_same {α : Type} (f : Picker → α → Picker) (hf : ∀ s a, SameRows s (f s a)) (l : List α) (s : Picker) :
    SameRows s (l.foldl f s) := by
  induction l generalizing s with
  | nil => exact .refl s
  | cons a rest ih => exact (hf s a).trans (ih (f s a))

theorem markSelected_same (s : Picker) : SameRows s s.markSelected := by
  refine foldl_same _ (fun t n => ?_) _ _
  exact modifyItem_same t n _ fun _ => ⟨rfl, rfl⟩

theorem renderNeedsYouBadges_same (s : Picker) : SameRows s s.renderNeedsYouBadges := by
  refine foldl_same _ (fun t row => ?_) _ _
  exact modifyItem_same t row.2 _ fun _ => ⟨rfl, rfl⟩

theorem Shows.same {s t : Picker} {sessions : List ListedSession} (h : s.Shows sessions) (hsame : SameRows s t) :
    t.Shows sessions := by
  have hrow : t.row = s.row := by
    funext id
    rw [row, row, hsame.rows]
  have hlabel : ∀ id, t.label id = s.label id := by
    intro id
    rw [label, label, hrow]
    exact Option.bind_congr fun n _ => (hsame.faces n).2
  refine ⟨h.unique, ⟨fun id => ?_, fun id n hn => ?_, fun id n hn => ?_, fun n hn => ?_⟩,
    fun session hsession => ?_, ?_⟩
  · rw [hrow]
    exact h.tracks.tracked id
  · rw [hrow] at hn
    rw [(hsame.faces n).1, (hsame.faces n).2]
    exact h.tracks.named id n hn
  · rw [hrow] at hn
    rw [hsame.created]
    exact h.tracks.minted id n hn
  · rw [hsame.children] at hn
    rw [hrow]
    exact h.tracks.children n hn
  · rw [hlabel]
    exact h.labels session hsession
  · rw [hsame.children, hrow]
    exact h.children

theorem Shows.shown {s : Picker} {sessions : List ListedSession} (h : s.Shows sessions) :
    s.shown = sessions.map fun session => (some session.id, some (sessionLabel session)) := by
  have hface : ∀ session ∈ sessions, ∃ n, s.row session.id = some n ∧
      ((s.item n).sessionId, (s.item n).button) = (some session.id, some (sessionLabel session)) := by
    intro session hsession
    obtain ⟨n, hn⟩ := (h.tracks.tracked session.id).mpr (mem_ids hsession)
    have hlabel := h.labels session hsession
    rw [label, hn, Option.bind_some] at hlabel
    exact ⟨n, hn, by rw [(h.tracks.named _ n hn).1, hlabel]⟩
  rw [Picker.shown, h.children]
  clear h
  induction sessions with
  | nil => rfl
  | cons session rest ih =>
    obtain ⟨⟨n, hn, hshown⟩, hrest⟩ := List.forall_mem_cons.mp hface
    rw [List.map_cons, List.filterMap_cons_some hn, List.map_cons, List.map_cons, hshown, ih hrest]

theorem Shows.rowAt {s : Picker} {sessions : List ListedSession} (h : s.Shows sessions) {id : JsString} {n : Nat}
    (hid : id ∈ sessions.map (·.id)) (hn : s.row id = some n) : s.RowAt n id := by
  refine ⟨?_, (h.tracks.named id n hn).1⟩
  rw [h.children]
  exact List.mem_filterMap.mpr ⟨id, hid, hn⟩

/-! ## Runs -/

/-- Either the placeholder stands in an untracked list, or the list last polled stands. -/
structure Kept (s : Picker) (last : Option (List ListedSession)) : Prop where
  rendered : s.renderedSessions = last.getD []
  empty : last = some [] → s.emptyPlaceholderShown = true ∧ s.sessionRows = .empty ∧ s.shown = rebuilt (some [])
  listed : last ≠ some [] → s.emptyPlaceholderShown = false ∧ s.Shows (last.getD [])

theorem edited_placeholder (s : Picker) (sessions : List ListedSession) :
    (s.edited sessions).emptyPlaceholderShown = s.emptyPlaceholderShown := by
  have hfold : ∀ {α : Type} (f : Picker → α → Picker) (l : List α) (s : Picker),
      (∀ s a, (f s a).emptyPlaceholderShown = s.emptyPlaceholderShown) →
        (l.foldl f s).emptyPlaceholderShown = s.emptyPlaceholderShown := by
    intro α f l s hf
    induction l generalizing s with
    | nil => rfl
    | cons a rest ih => exact (ih (f s a)).trans (hf s a)
  have hrelabel : ∀ (s : Picker) (edit : RowEdit),
      (s.relabelRow edit).emptyPlaceholderShown = s.emptyPlaceholderShown := by
    intro s edit
    unfold relabelRow
    split <;> rfl
  have hreorder : ∀ (s : Picker) (order : List JsString),
      (s.reorderRows order).emptyPlaceholderShown = s.emptyPlaceholderShown := by
    intro s order
    unfold reorderRows
    dsimp only
    split
    · rfl
    · rw [placeRows]
  rw [edited, hreorder, hfold _ _ _ hrelabel]
  exact (hfold (addRow _) _ _ fun _ _ => rfl).trans (hfold dropRow _ _ fun _ _ => rfl)

/-- What a poll that lists sessions starts from. -/
theorem Kept.ready {s : Picker} {last : Option (List ListedSession)} (h : s.Kept last) :
    s.clearPlaceholder.Shows s.clearPlaceholder.renderedSessions ∧
      s.clearPlaceholder.renderedSessions = last.getD [] ∧ s.clearPlaceholder.emptyPlaceholderShown = false ∧
      ∀ id, s.clearPlaceholder.row id = s.row id := by
  by_cases hlast : last = some []
  · obtain ⟨hshown, hrows, -⟩ := h.empty hlast
    have hrendered := h.rendered
    simp only [hlast, Option.getD_some] at hrendered ⊢
    simp only [clearPlaceholder, hshown, if_true, hrendered]
    exact ⟨.empty hrows rfl, trivial, trivial, fun _ => rfl⟩
  · obtain ⟨hhidden, hshows⟩ := h.listed hlast
    have hstill : s.clearPlaceholder = s := by simp [clearPlaceholder, hhidden]
    rw [hstill, h.rendered]
    exact ⟨hshows, rfl, hhidden, fun _ => rfl⟩

theorem Kept.same {s t : Picker} {last : Option (List ListedSession)} (h : s.Kept last) (hsame : SameRows s t) :
    t.Kept last := by
  refine ⟨hsame.rendered.trans h.rendered, fun hlast => ?_, fun hlast => ?_⟩
  · obtain ⟨hflag, hrows, hshown⟩ := h.empty hlast
    refine ⟨hsame.placeholder.trans hflag, hsame.rows.trans hrows, ?_⟩
    rw [← hshown, shown, shown, hsame.children]
    exact List.map_congr_left fun n _ => by rw [(hsame.faces n).1, (hsame.faces n).2]
  · obtain ⟨hflag, hshows⟩ := h.listed hlast
    exact ⟨hsame.placeholder.trans hflag, hshows.same hsame⟩

theorem kept_emptied {s : Picker} {last : Option (List ListedSession)} (h : s.Kept last) :
    (s.applySessionList []).Kept (some []) := by
  refine ⟨rfl, fun _ => ?_, fun hne => absurd rfl hne⟩
  simp only [applySessionList, if_true]
  split
  · rename_i hflag
    have hlast : last = some [] := by
      by_contra hne
      rw [(h.listed hne).1] at hflag
      cases hflag
    obtain ⟨-, hrows, hshown⟩ := h.empty hlast
    exact ⟨hflag, hrows, hshown⟩
  · exact ⟨rfl, rfl, by simp [shown, rebuilt, showPlaceholder, create]⟩

/-- A poll that lists sessions, over the state that its cursors left. -/
theorem kept_edited {s : Picker} {last : Option (List ListedSession)} (h : s.Kept last) {next : List ListedSession}
    (hne : next ≠ []) (hunique : (next.map (·.id)).Nodup) :
    Kept { s.clearPlaceholder.edited next with renderedSessions := next } (some next) ∧
      ∀ id ∈ (last.getD []).map (·.id), id ∈ next.map (·.id) → (s.clearPlaceholder.edited next).row id = s.row id := by
  obtain ⟨hshows, hrendered, hflag, hrow⟩ := h.ready
  obtain ⟨hnext, hkept⟩ := edited_shows hshows hunique
  refine ⟨⟨rfl, fun heq => absurd (Option.some.inj heq) hne, fun _ => ⟨(edited_placeholder _ next).trans hflag, ?_⟩⟩,
    fun id hold hid => ?_⟩
  · have htracks := hnext.tracks
    exact ⟨hunique, ⟨htracks.tracked, htracks.named, htracks.minted, htracks.children⟩, hnext.labels, hnext.children⟩
  · rw [← hrendered] at hold
    exact (hkept id hold hid).trans (hrow id)

theorem SameRows.row {s t : Picker} (h : SameRows s t) (id : JsString) : t.row id = s.row id := by
  rw [Picker.row, Picker.row, h.rows]

theorem kept_poll {s : Picker} {last : Option (List ListedSession)} (h : s.Kept last) {next : List ListedSession}
    (hunique : (next.map (·.id)).Nodup) :
    (s.applySessionList next).Kept (some next) ∧
      ∀ id ∈ (last.getD []).map (·.id), id ∈ next.map (·.id) → (s.applySessionList next).row id = s.row id := by
  by_cases hne : next = []
  · subst hne
    exact ⟨kept_emptied h, fun id _ hid => nomatch hid⟩
  · obtain ⟨hkept, hrows⟩ := kept_edited (h.same (SameRows.aside s _ s.needsYou)) hne hunique
    simp only [applySessionList, if_neg hne]
    have hsame := fun t : Picker => (markSelected_same t).trans (renderNeedsYouBadges_same t.markSelected)
    exact ⟨hkept.same (hsame _), fun id hold hid => ((hsame _).row id).trans (hrows id hold hid)⟩

theorem step_same (s : Picker) {e : Event} (he : e.polled = none) : SameRows s (s.step e) := by
  cases e with
  | poll sessions => cases he
  | reconciled needsYou => exact (SameRows.aside s s.client needsYou).trans (renderNeedsYouBadges_same _)
  | ack sessionId => exact (SameRows.aside s s.client _).trans (renderNeedsYouBadges_same _)
  | select sessionId => exact (SameRows.aside s _ s.needsYou).trans (markSelected_same _)
  | clear => exact (SameRows.aside s _ s.needsYou).trans (markSelected_same _)

theorem after_append (events : List Event) (e : Event) : after (events ++ [e]) = (after events).step e := by
  rw [after, List.foldl_concat, after]

theorem latest_append (events : List Event) (e : Event) :
    latest (events ++ [e]) = if e.polled = none then latest events else e.polled := by
  rw [latest, List.filterMap_append]
  cases hpolled : e.polled with
  | none => simp [hpolled, latest]
  | some sessions => simp [hpolled]

theorem kept_after (events : List Event) (h : ∀ sessions, .poll sessions ∈ events → (sessions.map (·.id)).Nodup) :
    (after events).Kept (latest events) := by
  induction events using List.reverseRecOn with
  | nil => exact ⟨rfl, fun hlast => (nomatch hlast), fun _ => ⟨rfl, .empty rfl rfl⟩⟩
  | append_singleton events e ih =>
    have hkept := ih fun sessions hmem => h sessions (List.mem_append_left _ hmem)
    rw [after_append, latest_append]
    cases hpolled : e.polled with
    | none => exact hkept.same (step_same _ hpolled)
    | some sessions =>
      cases e with
      | poll sessions' =>
        obtain rfl := Option.some.inj hpolled
        exact (kept_poll hkept (h sessions' (by simp))).1
      | reconciled | ack | select | clear => cases hpolled

theorem Kept.shown {s : Picker} {last : Option (List ListedSession)} (h : s.Kept last) : s.shown = rebuilt last := by
  match last with
  | none => exact (h.listed (by simp)).2.shown
  | some [] => exact (h.empty rfl).2.2
  | some (session :: rest) => exact (h.listed (by simp)).2.shown

theorem Kept.rowAt {s : Picker} {sessions : List ListedSession} (h : s.Kept (some sessions)) {id : JsString}
    (hid : id ∈ sessions.map (·.id)) : ∃ n, s.row id = some n ∧ s.RowAt n id := by
  have hne : some sessions ≠ some [] := by
    rintro heq
    rw [Option.some.inj heq] at hid
    cases hid
  have hshows := (h.listed hne).2
  obtain ⟨n, hn⟩ := (hshows.tracks.tracked id).mpr hid
  exact ⟨n, hn, hshows.rowAt hid hn⟩

/-- After every event the rows are the latest list's, in its order and with its labels; a row of
    two consecutive lists is one element, and no other event moves a row. -/
theorem picker_shows (events : List Event) (h : ∀ sessions, .poll sessions ∈ events → (sessions.map (·.id)).Nodup) :
    (after events).shown = rebuilt (latest events) ∧
    (∀ previous next, latest events = some previous → (next.map (·.id)).Nodup →
      ∀ id ∈ previous.map (·.id), id ∈ next.map (·.id) →
        ∃ n, (after events).RowAt n id ∧ (after (events ++ [.poll next])).RowAt n id) ∧
    (∀ e n id, Event.polled e = none → (after events).RowAt n id → (after (events ++ [e])).RowAt n id) := by
  have hkept := kept_after events h
  refine ⟨hkept.shown, fun previous next hlatest hunique id hold hid => ?_, fun e n id he hrow => ?_⟩
  · rw [hlatest] at hkept
    rw [after_append, step]
    obtain ⟨hnext, hrows⟩ := kept_poll hkept hunique
    obtain ⟨n, hn, hbefore⟩ := hkept.rowAt hold
    obtain ⟨m, hm, hafter⟩ := hnext.rowAt hid
    rw [hrows id hold hid, hn] at hm
    obtain rfl := Option.some.inj hm
    exact ⟨n, hbefore, hafter⟩
  · have hsame := step_same (after events) he
    rw [after_append]
    exact ⟨by rw [hsame.children]; exact hrow.1, by rw [(hsame.faces n).1]; exact hrow.2⟩

def listedAs (id kind : String) : ListedSession where
  id := js id
  cursor := none
  status := some (.str (js "ready"))
  activity := some (.obj [(js "kind", .str (js kind))])
  autoResolvesPermissions := none

/-- A row goes and one comes, the rest change places and labels, and then the list empties. -/
def reordered : List Event :=
  [.poll [listedAs "a" "running", listedAs "b" "idle"], .select (js "b"),
    .poll [listedAs "c" "idle", listedAs "b" "requires_action"], .poll [], .poll [listedAs "b" "idle"]]

theorem picker_shows_reordered : (after reordered).shown = rebuilt (some [listedAs "b" "idle"]) :=
  (picker_shows reordered (by
    intro sessions hmem
    simp only [reordered, List.mem_cons, Event.poll.injEq, reduceCtorEq, List.not_mem_nil, or_false, false_or] at hmem
    rcases hmem with rfl | rfl | rfl | rfl <;> decide)).1

end Picker

end Ccctl.WebUi
