import Ccctl.Core.Loopback
import Ccctl.Server.State
/-
  Ccctl.Server.TmuxLiveness — one window's liveness, read out of a listing of every window
  (`packages/server/src/session-launcher-tmux.ts`: `TMUX_LIVENESS_FORMAT`,
  `readWindowLiveness`).

  A row is a window as one session holds it: a window linked into several sessions, or held by
  a grouped session, has a row in each. The reading takes the first row of the window, and of
  that row's session the words of its name, joined by single spaces (`fields_line`). So it is
  safe precisely when a first row that reads as ours without a client is ours to the letter and
  the window's other rows are too (`readWindowLiveness_safe_iff`): a second link and a name that
  differs from ours in white space only are both read as ours to kill (`window_misread`).
-/

namespace Ccctl.Server

open Ccctl.Core

/-! ## What tmux prints -/

/-- `#{window_id}`. -/
def tmuxWindowId (n : Nat) : JsString := 0x40 :: digitsText n

/-- A window in one of the sessions that hold it. -/
structure WindowRow where
  window : Nat
  session : JsString
  attached : Nat
  /-- tmux escapes the controls of a session name. -/
  oneLine : 0x0A ∉ session
  deriving DecidableEq

def WindowRow.id (row : WindowRow) : JsString := tmuxWindowId row.window

/-- `TMUX_LIVENESS_FORMAT`, expanded. -/
def WindowRow.line (row : WindowRow) : JsString := row.id ++ 0x20 :: (row.session ++ 0x20 :: digitsText row.attached)

/-- `list-windows -a`, as the runner resolves it: its output, trimmed. -/
def listWindows (rows : List WindowRow) : JsString := trim (rows.flatMap fun row => row.line ++ [0x0A])

/-! ## The reading -/

/-- `split(/\s+/)` from the field so far; `inRun` is whether the unit before was whitespace. -/
def splitFrom (field : JsString) (inRun : Bool) : JsString → List JsString
  | [] => [field]
  | u :: rest =>
    if isSpace u then if inRun then splitFrom field true rest else field :: splitFrom [] true rest
    else splitFrom (field ++ [u]) false rest

def splitSpaces (s : JsString) : List JsString := splitFrom [] false s

/-- The loop over the lines. -/
def readLines (windowId sessionName : JsString) : List JsString → SurfaceLiveness
  | [] => .exited
  | line :: rest =>
    let fields := splitSpaces (trim line)
    if fields.head? ≠ some windowId then readLines windowId sessionName rest
    else
      let session := [0x20].intercalate fields.tail.dropLast
      let attached := if 1 < fields.length then fields.getLast?.getD [] else []
      if session ≠ sessionName ∨ attached ≠ js "0" then .takenOver else .aliveServerOwned

def readWindowLiveness (enumeration windowId sessionName : JsString) : SurfaceLiveness :=
  readLines windowId sessionName (enumeration.splitOn 0x0A)

/-- The words of a name, joined by single spaces. -/
def spacedOnce (name : JsString) : JsString := [0x20].intercalate ((splitSpaces name).filter (· ≠ []))

/-- The row's session is ours and nobody is attached to it. -/
def WindowRow.ours (row : WindowRow) (sessionName : JsString) : Prop := row.session = sessionName ∧ row.attached = 0

instance (row : WindowRow) (sessionName : JsString) : Decidable (row.ours sessionName) :=
  inferInstanceAs (Decidable (_ ∧ _))

def rowsOf (rows : List WindowRow) (windowId : JsString) : List WindowRow := rows.filter fun row => row.id = windowId

/-- What a reading may authorize. -/
structure SafeReading (rows : List WindowRow) (windowId sessionName : JsString) : Prop where
  alive : readWindowLiveness (listWindows rows) windowId sessionName = .aliveServerOwned →
    rowsOf rows windowId ≠ [] ∧ ∀ row ∈ rowsOf rows windowId, row.ours sessionName
  exited : readWindowLiveness (listWindows rows) windowId sessionName = .exited → rowsOf rows windowId = []

/-- A first row that reads as ours is ours, and so are the rows after it. -/
def Unmistaken (rows : List WindowRow) (windowId sessionName : JsString) : Prop :=
  match rowsOf rows windowId with
  | [] => True
  | row :: others =>
    spacedOnce row.session = sessionName ∧ row.attached = 0 →
      row.session = sessionName ∧ ∀ other ∈ others, other.ours sessionName

/-! ## Fields -/

def Solid (s : JsString) : Prop := ∀ u ∈ s, isSpace u = false

theorem splitFrom_solid {s : JsString} (h : Solid s) (hne : s ≠ []) (field : JsString) (inRun : Bool)
    (rest : JsString) :
    splitFrom field inRun (s ++ rest) = splitFrom (field ++ s) false rest := by
  induction s generalizing field inRun with
  | nil => exact absurd rfl hne
  | cons u s ih =>
    have hu : isSpace u = false := h u List.mem_cons_self
    rw [List.cons_append, splitFrom, hu, if_neg (by decide)]
    rcases s with _ | ⟨v, s⟩
    · rfl
    · rw [ih (fun w hw => h w (List.mem_cons_of_mem _ hw)) (by simp), List.append_assoc]
      rfl

theorem splitFrom_space (field : JsString) (inRun : Bool) (rest : JsString) :
    splitFrom field inRun (0x20 :: rest) =
      if inRun then splitFrom field true rest else field :: splitFrom [] true rest := by
  have hspace : isSpace 0x20 = true := by decide
  rw [splitFrom, if_pos hspace]

/-- After a name and a space, one last word: the name's words and that word. -/
theorem splitFrom_last {last : JsString} (h : Solid last) (hne : last ≠ []) {field : JsString} {inRun : Bool}
    (hfield : inRun = true ↔ field = []) (name : JsString) :
    splitFrom field inRun (name ++ 0x20 :: last) = (splitFrom field inRun name).filter (· ≠ []) ++ [last] := by
  have hend : splitFrom [] true last = [last] := by
    have hsolid := splitFrom_solid h hne [] true []
    rwa [List.append_nil, List.nil_append] at hsolid
  induction name generalizing field inRun with
  | nil =>
    rw [List.nil_append, splitFrom_space]
    cases inRun with
    | true =>
      obtain rfl : field = [] := hfield.mp rfl
      rw [if_pos rfl, hend]
      simp [splitFrom]
    | false =>
      have hfield : field ≠ [] := fun h0 => by simpa using hfield.mpr h0
      rw [if_neg (by decide), hend]
      simp [splitFrom, hfield]
  | cons u name ih =>
    rw [List.cons_append, splitFrom, splitFrom]
    split
    · cases inRun with
      | true =>
        obtain rfl : field = [] := hfield.mp rfl
        rw [if_pos rfl, if_pos rfl]
        exact ih (by simp)
      | false =>
        have hfield : field ≠ [] := fun h0 => by simpa using hfield.mpr h0
        rw [if_neg (by decide), if_neg (by decide), ih (by simp), List.filter_cons_of_pos (by simpa using hfield),
          List.cons_append]
    · exact ih (by simp)

/-- Where the string starts decides nothing but a first empty field. -/
theorem filter_splitFrom_true (s : JsString) :
    (splitFrom [] true s).filter (· ≠ []) = (splitSpaces s).filter (· ≠ []) := by
  cases s with
  | nil => rfl
  | cons u rest =>
    rw [splitSpaces, splitFrom, splitFrom]
    split
    · rw [if_pos rfl, if_neg (by decide), List.filter_cons_of_neg (by simp)]
    · rfl

theorem solid_digitsText (n : Nat) : Solid (digitsText n) := by
  have hdigit : ∀ u : UInt16, isDigit u = true → isSpace u = false := by
    intro u hu
    simp only [isDigit, Bool.and_eq_true, decide_eq_true_eq] at hu
    by_contra hspace
    have hbound : u.toNat < 0x3A := by omega
    have hall : ∀ n < 0x3A, 0x30 ≤ n → isSpace (UInt16.ofNat n) = false := by decide
    rw [← UInt16.ofNat_toNat (x := u), hall _ hbound hu.1] at hspace
    exact hspace rfl
  obtain ⟨d, rest, htext, hd, hrest, -⟩ := digitsText_shape n
  rw [htext]
  exact List.forall_mem_cons.mpr ⟨hdigit d hd, fun u hu => hdigit u (hrest u hu)⟩

theorem digitsText_ne_nil (n : Nat) : digitsText n ≠ [] := by
  obtain ⟨d, rest, htext, -⟩ := digitsText_shape n
  rw [htext]
  exact List.cons_ne_nil d rest

theorem solid_id (row : WindowRow) : Solid row.id :=
  List.forall_mem_cons.mpr ⟨by decide, solid_digitsText row.window⟩

theorem line_head (row : WindowRow) : row.line.head? = some 0x40 := rfl

theorem line_last (row : WindowRow) (u : UInt16) (h : row.line.getLast? = some u) : isSpace u = false := by
  have hlast : row.line.getLast? = (digitsText row.attached).getLast? := by
    have hsplit : row.line = (row.id ++ 0x20 :: (row.session ++ [0x20])) ++ digitsText row.attached := by
      simp [WindowRow.line]
    rw [hsplit, List.getLast?_append_of_ne_nil _ (digitsText_ne_nil _)]
  rw [hlast] at h
  exact solid_digitsText _ u (List.mem_of_getLast? h)

theorem fields_line (row : WindowRow) :
    splitSpaces (trim row.line) =
      row.id :: ((splitSpaces row.session).filter (· ≠ []) ++ [digitsText row.attached]) := by
  have htrim : trim row.line = row.line := by
    refine trim_of_trimmed (fun u hu => ?_) (line_last row)
    rw [line_head, Option.some.injEq] at hu
    subst hu
    decide
  rw [htrim, splitSpaces, WindowRow.line, splitFrom_solid (solid_id row) (List.cons_ne_nil _ _), List.nil_append,
    splitFrom_space, if_neg (by decide),
    splitFrom_last (solid_digitsText _) (digitsText_ne_nil _) (by simp), filter_splitFrom_true]

/-! ## Lines -/

theorem newline_not_mem_solid {s : JsString} (h : Solid s) : (0x0A : UInt16) ∉ s := by
  intro hmem
  have hspace : isSpace 0x0A = false := h _ hmem
  exact absurd hspace (by decide)

theorem newline_not_mem_line (row : WindowRow) : (0x0A : UInt16) ∉ row.line := by
  simp only [WindowRow.line, List.mem_append, List.mem_cons, not_or]
  exact ⟨newline_not_mem_solid (solid_id row), by decide, row.oneLine, by decide,
    newline_not_mem_solid (solid_digitsText _)⟩

theorem printed_rows (row : WindowRow) (rows : List WindowRow) :
    ((row :: rows).flatMap fun row => row.line ++ [0x0A]) =
      [0x0A].intercalate ((row :: rows).map WindowRow.line) ++ [0x0A] := by
  induction rows generalizing row with
  | nil => simp [List.intercalate]
  | cons next rest ih =>
    rw [List.flatMap_cons, ih next, List.map_cons (a := row), List.map_cons, List.intercalate_cons_cons]
    simp

theorem trim_newline {s : JsString} (hne : s ≠ []) (hhead : ∀ u, s.head? = some u → isSpace u = false)
    (hlast : ∀ u, s.getLast? = some u → isSpace u = false) : trim (s ++ [0x0A]) = s := by
  have hkept : (s ++ [0x0A]).dropWhile isSpace = s ++ [0x0A] := by
    cases s with
    | nil => exact absurd rfl hne
    | cons v rest => simp [hhead v rfl]
  have hback : trim s = s.rdropWhile isSpace := by
    cases s with
    | nil => exact absurd rfl hne
    | cons v rest => simp [trim, hhead v rfl]
  rw [trim, hkept, List.rdropWhile_concat_pos _ _ _ (by decide), ← hback, trim_of_trimmed hhead hlast]

theorem joined_last (row : WindowRow) (rows : List WindowRow) (u : UInt16)
    (h : ([0x0A].intercalate ((row :: rows).map WindowRow.line)).getLast? = some u) : isSpace u = false := by
  induction rows generalizing row with
  | nil => exact line_last row u (by simpa [List.intercalate] using h)
  | cons next rest ih =>
    have hne : [0x0A].intercalate ((next :: rest).map WindowRow.line) ≠ [] := by
      intro hnil
      have hlength := congrArg List.length (printed_rows next rest)
      rw [hnil] at hlength
      simp [WindowRow.line, WindowRow.id, tmuxWindowId] at hlength
    rw [List.map_cons, List.map_cons, List.intercalate_cons_cons, ← List.map_cons,
      List.getLast?_append_of_ne_nil _ hne] at h
    exact ih next h

theorem lines_listed (row : WindowRow) (rows : List WindowRow) :
    (listWindows (row :: rows)).splitOn 0x0A = (row :: rows).map WindowRow.line := by
  have htrim : listWindows (row :: rows) = [0x0A].intercalate ((row :: rows).map WindowRow.line) := by
    rw [listWindows, printed_rows]
    refine trim_newline ?_ (fun u hu => ?_) (joined_last row rows)
    · cases rows <;> simp [List.intercalate, WindowRow.line, WindowRow.id, tmuxWindowId]
    · have hat : u = 0x40 := by
        cases rows <;> simpa [List.intercalate, WindowRow.line, WindowRow.id, tmuxWindowId, eq_comm] using hu
      rw [hat]
      decide
  rw [htrim, List.splitOn_intercalate 0x0A (fun s hs => ?_) (by simp)]
  obtain ⟨listed, -, rfl⟩ := List.mem_map.mp hs
  exact newline_not_mem_line listed

/-! ## The reading of a listing -/

theorem digitsText_zero {n : Nat} (h : digitsText n = js "0") : n = 0 := by
  have hvalue := congrArg digitsValue h
  rw [digitsValue_digitsText] at hvalue
  exact hvalue

/-- The fields of a row's line, read from the outside in. -/
theorem outside_in (id : JsString) (words : List JsString) (attached : JsString) :
    (id :: (words ++ [attached])).tail.dropLast = words ∧
      (if 1 < (id :: (words ++ [attached])).length then (id :: (words ++ [attached])).getLast?.getD [] else []) =
        attached := by
  refine ⟨by rw [List.tail_cons, List.dropLast_concat], ?_⟩
  rw [if_pos (by simp), ← List.cons_append, List.getLast?_concat, Option.getD_some]

theorem readLines_rows (windowId sessionName : JsString) (rows : List WindowRow) :
    readLines windowId sessionName (rows.map WindowRow.line) =
      match rowsOf rows windowId with
      | [] => .exited
      | row :: _ =>
        if spacedOnce row.session = sessionName ∧ row.attached = 0 then .aliveServerOwned else .takenOver := by
  induction rows with
  | nil => rfl
  | cons row rest ih =>
    obtain ⟨hsession, hattached⟩ := outside_in row.id ((splitSpaces row.session).filter (· ≠ []))
      (digitsText row.attached)
    rw [List.map_cons, readLines, fields_line]
    dsimp only
    rw [hsession, hattached, List.head?_cons]
    by_cases hid : row.id = windowId
    · have hlists : rowsOf (row :: rest) windowId = row :: rowsOf rest windowId :=
        List.filter_cons_of_pos (by simpa using hid)
      have hzero : digitsText row.attached = js "0" ↔ row.attached = 0 :=
        ⟨digitsText_zero, fun h0 => by rw [h0]; rfl⟩
      rw [hlists, if_neg (by simpa using hid)]
      dsimp only
      by_cases hours : spacedOnce row.session = sessionName ∧ row.attached = 0
      · have hkept : ¬ (spacedOnce row.session ≠ sessionName ∨ digitsText row.attached ≠ js "0") := by
          rw [not_or, not_not, not_not, hzero]
          exact hours
        rw [if_pos hours]
        exact if_neg hkept
      · have htaken : spacedOnce row.session ≠ sessionName ∨ digitsText row.attached ≠ js "0" := by
          rw [ne_eq, ne_eq, ← not_and_or, hzero]
          exact hours
        rw [if_neg hours]
        exact if_pos htaken
    · have hlists : rowsOf (row :: rest) windowId = rowsOf rest windowId :=
        List.filter_cons_of_neg (by simpa using hid)
      rw [if_pos (by simpa using hid), ih, hlists]

/-- An empty listing is one empty line. -/
theorem readWindowLiveness_empty (windowId sessionName : JsString) :
    readWindowLiveness (listWindows []) windowId sessionName = if windowId = [] then .takenOver else .exited := by
  have hfields : splitSpaces (trim []) = [[]] := rfl
  have hlines : (listWindows []).splitOn 0x0A = [[]] := rfl
  have hunread : ([] : JsString) ≠ js "0" := by decide
  rw [readWindowLiveness, hlines, readLines, hfields]
  by_cases hid : windowId = []
  · rw [if_pos hid, hid]
    exact if_pos (Or.inr hunread)
  · rw [if_neg hid]
    exact if_pos fun h => hid (Option.some.inj h).symm

theorem readWindowLiveness_rows (row : WindowRow) (rows : List WindowRow) (windowId sessionName : JsString) :
    readWindowLiveness (listWindows (row :: rows)) windowId sessionName =
      match rowsOf (row :: rows) windowId with
      | [] => .exited
      | first :: _ =>
        if spacedOnce first.session = sessionName ∧ first.attached = 0 then .aliveServerOwned else .takenOver := by
  rw [readWindowLiveness, lines_listed, readLines_rows]

/-- A reading is safe precisely when the window's first row is not mistaken for ours. -/
theorem readWindowLiveness_safe_iff (rows : List WindowRow) (windowId sessionName : JsString) :
    SafeReading rows windowId sessionName ↔ Unmistaken rows windowId sessionName := by
  rcases rows with _ | ⟨row, rows⟩
  · refine iff_of_true ⟨fun halive => ?_, fun _ => rfl⟩ trivial
    rw [readWindowLiveness_empty] at halive
    split at halive <;> cases halive
  · have hread := readWindowLiveness_rows row rows windowId sessionName
    unfold Unmistaken
    rcases hrows : rowsOf (row :: rows) windowId with _ | ⟨first, others⟩
    · rw [hrows] at hread
      refine iff_of_true ⟨fun halive => ?_, fun _ => hrows⟩ trivial
      rw [hread] at halive
      cases halive
    · rw [hrows] at hread
      dsimp only at hread ⊢
      constructor
      · intro hsafe hours
        rw [if_pos hours] at hread
        have hall := (hsafe.alive hread).2
        rw [hrows] at hall
        exact ⟨(hall first List.mem_cons_self).1, fun other hother => hall other (List.mem_cons_of_mem _ hother)⟩
      · intro hunmistaken
        refine ⟨fun halive => ?_, fun hexited => ?_⟩
        · rw [hread] at halive
          split at halive
          · rename_i hours
            obtain ⟨hname, hothers⟩ := hunmistaken hours
            rw [hrows]
            exact ⟨List.cons_ne_nil _ _, List.forall_mem_cons.mpr ⟨⟨hname, hours.2⟩, hothers⟩⟩
          · cases halive
        · rw [hread] at hexited
          split at hexited <;> cases hexited

/-- `ccctl` as it holds window 1. -/
def ourRow : WindowRow := ⟨1, js "ccctl", 0, by decide⟩

/-- The same window, linked into a session where somebody sits. -/
def linkedRow : WindowRow := ⟨1, js "work", 1, by decide⟩

/-- Window 1 in a session of another name. -/
def spacedRow : WindowRow := ⟨1, js "ccctl ", 0, by decide⟩

/-- A window linked into an attended session, and one in a session named `ccctl` and a space. -/
theorem window_misread :
    ¬ SafeReading [ourRow, linkedRow] (js "@1") (js "ccctl") ∧ ¬ SafeReading [spacedRow] (js "@1") (js "ccctl") := by
  constructor
  · intro hsafe
    have hours := (hsafe.alive (by decide)).2 linkedRow (by decide)
    exact absurd hours (by decide)
  · intro hsafe
    have hours := (hsafe.alive (by decide)).2 spacedRow (by decide)
    exact absurd hours (by decide)

end Ccctl.Server
