import Ccctl.Lib.Segments
import Ccctl.Lib.Utf8
/-
  Ccctl.Lib.EventSource — the `text/event-stream` format, and the reader a browser has for it.

  The reader takes a stream code point by code point: a line ends at a line feed, a return or
  both; a line is a field (`name: value`, a comment where the name is empty); an empty line
  dispatches what the fields gathered. The data of one event is its `data` fields joined by line
  feeds, the id buffer outlives the event, and the source's own last event id is set from it by
  every empty line, whether that dispatches anything or not. What a new connection's id buffer
  begins with is the caller's: the standard's text says empty, engines carry the last event id over.

  `block` is the writer's side: fields, one a line, and the empty line. However its bytes arrive,
  the reader gathers the fields of each block that is there to its end and dispatches it once
  (`read_block`), and of a block cut short it dispatches nothing and moves no id (`read_cut`).
-/

namespace Ccctl.Lib

def LF : Nat := 0x0A
def CR : Nat := 0x0D
def COLON : Nat := 0x3A
def SPACE : Nat := 0x20
def BYTE_ORDER_MARK : Nat := 0xFEFF

def ascii (s : String) : List Nat := s.toList.map Char.toNat

/-- An event as it is handed out; an empty name stands for the default one. -/
structure Dispatched where
  name : List Nat
  data : List Nat
  lastEventId : List Nat
  deriving DecidableEq, Repr

structure EventReader where
  /-- A point has been read: a byte order mark no longer is one. -/
  begun : Bool
  line : List Nat
  /-- The line ended with a return, so a line feed right after belongs to it. -/
  afterReturn : Bool
  name : List Nat
  data : List Nat
  idBuffer : List Nat
  lastEventId : List Nat
  deriving DecidableEq, Repr

namespace EventReader

/-- A new connection, with what its id buffer begins with and the source's last event id. -/
def opened (idBuffer lastEventId : List Nat) : EventReader := ⟨false, [], false, [], [], idBuffer, lastEventId⟩

def field (r : EventReader) (name value : List Nat) : EventReader :=
  if name = ascii "event" then { r with name := value }
  else if name = ascii "data" then { r with data := r.data ++ (value ++ [LF]) }
  else if name = ascii "id" then if 0 ∈ value then r else { r with idBuffer := value }
  else r

def dispatch (r : EventReader) : EventReader × List Dispatched :=
  ({ r with lastEventId := r.idBuffer, name := [], data := [] },
    if r.data = [] then [] else [⟨r.name, r.data.dropLast, r.idBuffer⟩])

def unspaced : List Nat → List Nat
  | [] => []
  | c :: rest => if c = SPACE then rest else c :: rest

def takeLine (r : EventReader) (line : List Nat) : EventReader × List Dispatched :=
  if line = [] then r.dispatch
  else (r.field (line.takeWhile (· ≠ COLON)) (unspaced ((line.dropWhile (· ≠ COLON)).drop 1)), [])

def step (r : EventReader) (c : Nat) : EventReader × List Dispatched :=
  if c = BYTE_ORDER_MARK ∧ r.begun = false then ({ r with begun := true }, [])
  else if c = LF then
    if r.afterReturn then ({ r with begun := true, afterReturn := false }, [])
    else { r with begun := true, line := [] }.takeLine r.line
  else if c = CR then { r with begun := true, line := [], afterReturn := true }.takeLine r.line
  else ({ r with begun := true, line := r.line ++ [c], afterReturn := false }, [])

def read : EventReader → List Nat → EventReader × List Dispatched
  | r, [] => (r, [])
  | r, c :: rest => ((read (r.step c).1 rest).1, (r.step c).2 ++ (read (r.step c).1 rest).2)

theorem read_append (r : EventReader) (points later : List Nat) :
    r.read (points ++ later) = (((r.read points).1.read later).1, (r.read points).2 ++ ((r.read points).1.read later).2) := by
  induction points generalizing r with
  | nil => simp [read]
  | cons c points ih => simp only [List.cons_append, read, ih, List.append_assoc]

/-! ## What a writer writes -/

def fieldLine (f : List Nat × List Nat) : List Nat := f.1 ++ (COLON :: SPACE :: f.2)

def ended (line : List Nat) : List Nat := line ++ [LF]

/-- Fields, one a line, and the empty line that ends the event. -/
def block (fields : List (List Nat × List Nat)) : List Nat := fields.flatMap (fun f => ended (fieldLine f)) ++ [LF]

/-- Nothing in it ends a line. -/
def OneLine (text : List Nat) : Prop := ∀ c ∈ text, c ≠ LF ∧ c ≠ CR

structure Written (f : List Nat × List Nat) : Prop where
  name : OneLine f.1
  plain : COLON ∉ f.1
  value : OneLine f.2

theorem Written.line {f : List Nat × List Nat} (h : Written f) : OneLine (fieldLine f) := by
  intro c hc
  rcases List.mem_append.mp hc with hc | hc
  · exact h.name c hc
  · rcases List.mem_cons.mp hc with rfl | hc
    · decide
    · rcases List.mem_cons.mp hc with rfl | hc
      · decide
      · exact h.value c hc

/-! ## Reading it -/

/-- Between two lines of a stream. -/
structure AtLine (r : EventReader) : Prop where
  begun : r.begun = true
  line : r.line = []
  feed : r.afterReturn = false

/-- Between two events. -/
structure AtRest (r : EventReader) : Prop extends AtLine r where
  name : r.name = []
  data : r.data = []

variable {r : EventReader}

@[simp] theorem field_begun (name value : List Nat) : (r.field name value).begun = r.begun := by
  unfold field
  repeat' split
  all_goals rfl

@[simp] theorem field_line (name value : List Nat) : (r.field name value).line = r.line := by
  unfold field
  repeat' split
  all_goals rfl

@[simp] theorem field_afterReturn (name value : List Nat) : (r.field name value).afterReturn = r.afterReturn := by
  unfold field
  repeat' split
  all_goals rfl

@[simp] theorem field_lastEventId (name value : List Nat) : (r.field name value).lastEventId = r.lastEventId := by
  unfold field
  repeat' split
  all_goals rfl

theorem AtLine.field (h : AtLine r) (name value : List Nat) : AtLine (r.field name value) :=
  ⟨by rw [field_begun, h.begun], by rw [field_line, h.line], by rw [field_afterReturn, h.feed]⟩

theorem AtLine.dispatch (h : AtLine r) : AtRest r.dispatch.1 := ⟨⟨h.begun, h.line, h.feed⟩, rfl, rfl⟩

/-- Reading on inside a line only gathers it. -/
theorem read_oneLine {text : List Nat} (h : OneLine text) (hbegun : r.begun = true) (hfeed : r.afterReturn = false) :
    r.read text = ({ r with line := r.line ++ text }, []) := by
  induction text generalizing r with
  | nil => simp [read]
  | cons c text ih =>
    obtain ⟨⟨hlf, hcr⟩, htext⟩ := List.forall_mem_cons.mp h
    have hstep : r.step c = ({ r with line := r.line ++ [c] }, []) := by
      rw [step, if_neg (by simp [hbegun]), if_neg hlf, if_neg hcr]
      congr 1
      rw [← hbegun, ← hfeed]
    have hrest := ih (r := { r with line := r.line ++ [c] }) htext hbegun hfeed
    rw [read, hstep, hrest, List.append_assoc]
    rfl

theorem read_ended {line : List Nat} (h : OneLine line) (hr : AtLine r) : r.read (ended line) = r.takeLine line := by
  have hstep : ({ r with line := line } : EventReader).step LF = r.takeLine line := by
    rw [step, if_neg (by simp [hr.begun]), if_pos rfl, if_neg (by simp [hr.feed])]
    congr 1
    rw [← hr.begun, ← hr.line]
  rw [ended, read_append, read_oneLine h hr.begun hr.feed, hr.line]
  simp only [List.nil_append, read, hstep, List.append_nil]

theorem takeLine_field {f : List Nat × List Nat} (h : Written f) : r.takeLine (fieldLine f) = (r.field f.1 f.2, []) := by
  have hname : ∀ c ∈ f.1, decide (c ≠ COLON) = true := fun c hc => by
    simp only [ne_eq, decide_not, Bool.not_eq_true', decide_eq_false_iff_not]
    intro heq
    subst heq
    exact h.plain hc
  have htake : (fieldLine f).takeWhile (· ≠ COLON) = f.1 := by
    rw [fieldLine, List.takeWhile_append_of_pos hname]
    simp
  have hdrop : (fieldLine f).dropWhile (· ≠ COLON) = COLON :: SPACE :: f.2 := by
    rw [fieldLine, List.dropWhile_append_of_pos hname]
    simp
  rw [takeLine, if_neg (by simp [fieldLine]), htake, hdrop]
  rfl

theorem read_field {f : List Nat × List Nat} (h : Written f) (hr : AtLine r) :
    r.read (ended (fieldLine f)) = (r.field f.1 f.2, []) := by
  rw [read_ended h.line hr, takeLine_field h]

def gathered (r : EventReader) (fields : List (List Nat × List Nat)) : EventReader :=
  fields.foldl (fun r f => r.field f.1 f.2) r

theorem gathered_line (hr : AtLine r) (fields : List (List Nat × List Nat)) : AtLine (r.gathered fields) := by
  induction fields generalizing r with
  | nil => exact hr
  | cons f fields ih => exact ih (hr.field f.1 f.2)

theorem read_fields {fields : List (List Nat × List Nat)} (h : ∀ f ∈ fields, Written f) (hr : AtLine r) :
    r.read (fields.flatMap fun f => ended (fieldLine f)) = (r.gathered fields, []) := by
  induction fields generalizing r with
  | nil => rfl
  | cons f fields ih =>
    obtain ⟨hf, hfields⟩ := List.forall_mem_cons.mp h
    rw [List.flatMap_cons, read_append, read_field hf hr, ih hfields (hr.field f.1 f.2)]
    rfl

/-- A block gathers its fields and dispatches. -/
theorem read_block {fields : List (List Nat × List Nat)} (h : ∀ f ∈ fields, Written f) (hr : AtLine r) :
    r.read (block fields) = (r.gathered fields).dispatch := by
  have hline := gathered_line hr fields
  rw [block, read_append, read_fields h hr]
  have hend : (r.gathered fields).read (ended []) = (r.gathered fields).takeLine [] :=
    read_ended (by simp [OneLine]) hline
  exact Prod.ext (congrArg Prod.fst hend) (congrArg Prod.snd hend)

/-- Inside its lines a block dispatches nothing and moves no id. -/
theorem read_lines_cut {fields : List (List Nat × List Nat)} (h : ∀ f ∈ fields, Written f) (hr : AtLine r)
    {points rest : List Nat} (hsplit : points ++ rest = fields.flatMap fun f => ended (fieldLine f)) :
    (r.read points).2 = [] ∧ (r.read points).1.lastEventId = r.lastEventId := by
  induction fields generalizing r points with
  | nil =>
    obtain ⟨rfl, -⟩ := List.append_eq_nil_iff.mp hsplit
    exact ⟨rfl, rfl⟩
  | cons f fields ih =>
    obtain ⟨hf, hfields⟩ := List.forall_mem_cons.mp h
    rw [List.flatMap_cons] at hsplit
    rcases List.append_eq_append_iff.mp hsplit with ⟨more, hmore, -⟩ | ⟨more, hmore, hafter⟩
    · -- The cut is in the first line, or at its end.
      rcases List.eq_nil_or_concat' more with rfl | ⟨init, last, rfl⟩
      · rw [List.append_nil] at hmore
        rw [← hmore, read_field hf hr]
        exact ⟨rfl, field_lastEventId f.1 f.2⟩
      · have hpre : points ++ init = fieldLine f := by
          have heq : fieldLine f ++ [LF] = (points ++ init) ++ [last] := by
            rw [List.append_assoc, ← hmore, ended]
          exact (List.append_inj' heq rfl).1.symm
        have hline : OneLine points := fun c hc => hf.line c (hpre ▸ List.mem_append_left init hc)
        rw [read_oneLine hline hr.begun hr.feed]
        exact ⟨rfl, rfl⟩
    · obtain ⟨hnone, hid⟩ := ih hfields (hr.field f.1 f.2) hafter.symm
      rw [hmore, read_append, read_field hf hr]
      exact ⟨hnone, hid.trans (field_lastEventId f.1 f.2)⟩

/-- Of a block cut short nothing is dispatched, and no id moves. -/
theorem read_cut {fields : List (List Nat × List Nat)} (h : ∀ f ∈ fields, Written f) (hr : AtLine r)
    {points rest : List Nat} (hsplit : points ++ rest = block fields) (hrest : rest ≠ []) :
    (r.read points).2 = [] ∧ (r.read points).1.lastEventId = r.lastEventId := by
  obtain ⟨init, last, rfl⟩ := (List.eq_nil_or_concat' rest).resolve_left hrest
  have hpre : points ++ init = fields.flatMap fun f => ended (fieldLine f) := by
    have heq : (points ++ init) ++ [last] = (fields.flatMap fun f => ended (fieldLine f)) ++ [LF] := by
      rw [List.append_assoc, hsplit, block]
    exact (List.append_inj' heq rfl).1
  exact read_lines_cut h hr hpre

/-- Where no byte order mark comes first, a new connection reads as one that has begun. -/
theorem read_begun {points : List Nat} (h : points.head? ≠ some BYTE_ORDER_MARK) :
    (r.read points).2 = ({ r with begun := true }.read points).2 ∧
      (r.read points).1.lastEventId = ({ r with begun := true }.read points).1.lastEventId := by
  cases points with
  | nil => exact ⟨rfl, rfl⟩
  | cons c points =>
    have hc : c ≠ BYTE_ORDER_MARK := fun heq => h (congrArg some heq)
    have hstep : r.step c = { r with begun := true }.step c := by
      simp only [step, hc, false_and, if_false]
    rw [read, read, hstep]
    exact ⟨rfl, rfl⟩

/-! ## The data of an event -/

/-- A text written as one `data` field a line. -/
def dataFields (text : List Nat) : List (List Nat × List Nat) := (text.splitOn LF).map fun line => (ascii "data", line)

theorem field_data (value : List Nat) :
    r.field (ascii "data") value = { r with data := r.data ++ (value ++ [LF]) } := by
  rw [field, if_neg (by decide), if_pos rfl]

theorem field_id {value : List Nat} (h : 0 ∉ value) : r.field (ascii "id") value = { r with idBuffer := value } := by
  rw [field, if_neg (by decide), if_neg (by decide), if_pos rfl, if_neg h]

theorem gathered_lines (lines : List (List Nat)) :
    r.gathered (lines.map fun line => (ascii "data", line)) = { r with data := r.data ++ lines.flatMap ended } := by
  induction lines generalizing r with
  | nil => simp [gathered]
  | cons line lines ih =>
    rw [List.map_cons, gathered, List.foldl_cons, field_data]
    refine ih.trans ?_
    simp [ended]

/-- The reader joins what the writer split. -/
theorem gathered_data (text : List Nat) : r.gathered (dataFields text) = { r with data := r.data ++ (text ++ [LF]) } := by
  have hjoined : ∀ lines : List (List Nat), lines ≠ [] → lines.flatMap ended = [LF].intercalate lines ++ [LF] := by
    intro lines hne
    induction lines with
    | nil => exact absurd rfl hne
    | cons line lines ih =>
      cases lines with
      | nil => simp [ended, List.intercalate]
      | cons next lines =>
        rw [List.flatMap_cons, ih (by simp), ended]
        simp [List.intercalate, List.intersperse]
  rw [dataFields, gathered_lines, hjoined _ (List.splitOn_ne_nil LF text), List.intercalate_splitOn]

/-! ## A connection, byte by byte -/

/-- What the reader does of whole blocks. -/
def told : EventReader → List (List (List Nat × List Nat)) → EventReader × List Dispatched
  | r, [] => (r, [])
  | r, fields :: rest =>
    ((told (r.gathered fields).dispatch.1 rest).1,
      (r.gathered fields).dispatch.2 ++ (told (r.gathered fields).dispatch.1 rest).2)

end EventReader

/-- The bytes of a connection as they come: the point begun, and the reader of the points before. -/
structure Connection where
  begun : Option Begun
  reader : EventReader

namespace Connection

def opened (idBuffer lastEventId : List Nat) : Connection := ⟨none, .opened idBuffer lastEventId⟩

def receive (c : Connection) (bytes : List Nat) : Connection × List Dispatched :=
  (⟨(utf8Feed c.begun bytes).2, (c.reader.read (utf8Feed c.begun bytes).1).1⟩,
    (c.reader.read (utf8Feed c.begun bytes).1).2)

/-- Chunk by chunk. -/
def receiveAll : Connection → List (List Nat) → Connection × List Dispatched
  | c, [] => (c, [])
  | c, chunk :: rest =>
    ((receiveAll (c.receive chunk).1 rest).1, (c.receive chunk).2 ++ (receiveAll (c.receive chunk).1 rest).2)

theorem receive_append (c : Connection) (bytes later : List Nat) :
    c.receive (bytes ++ later) =
      (((c.receive bytes).1.receive later).1, (c.receive bytes).2 ++ ((c.receive bytes).1.receive later).2) := by
  simp only [receive, utf8Feed_append, EventReader.read_append]

/-- How the bytes were cut into chunks is not seen. -/
theorem receiveAll_eq (c : Connection) (chunks : List (List Nat)) : c.receiveAll chunks = c.receive chunks.flatten := by
  induction chunks generalizing c with
  | nil => rfl
  | cons chunk chunks ih => rw [List.flatten_cons, receive_append, receiveAll, ih]

end Connection

namespace EventReader

/-- The bytes of blocks on the wire. -/
def wire (blocks : List (List (List Nat × List Nat))) : List Nat := (blocks.flatMap block).flatMap utf8

theorem wire_cons (fields : List (List Nat × List Nat)) (blocks : List (List (List Nat × List Nat))) :
    wire (fields :: blocks) = (block fields).flatMap utf8 ++ wire blocks := by
  simp [wire]

/-- The bytes so far are whole blocks and, at most, some of the next. -/
structure Arrived (blocks : List (List (List Nat × List Nat))) (bytes : List Nat) (k : Nat) : Prop where
  count : k ≤ blocks.length
  whole : wire (blocks.take k) <+: bytes
  partial_ : k < blocks.length → ¬ wire (blocks.take (k + 1)) <+: bytes

theorem Arrived.cons {fields : List (List Nat × List Nat)} {blocks : List (List (List Nat × List Nat))}
    {bytes : List Nat} {k : Nat} (h : Arrived blocks bytes k) :
    Arrived (fields :: blocks) ((block fields).flatMap utf8 ++ bytes) (k + 1) := by
  have hiff : ∀ j, wire ((fields :: blocks).take (j + 1)) <+: (block fields).flatMap utf8 ++ bytes ↔
      wire (blocks.take j) <+: bytes := fun j => by
    rw [List.take_succ_cons, wire_cons, List.prefix_append_right_inj]
  exact ⟨Nat.succ_le_succ h.count, (hiff k).mpr h.whole, fun hk hnext =>
    h.partial_ (Nat.lt_of_succ_lt_succ hk) ((hiff (k + 1)).mp hnext)⟩

/-- However much of the wire has come, what was dispatched is what the whole blocks in it tell. -/
theorem receive_wire {blocks : List (List (List Nat × List Nat))} (hwritten : ∀ b ∈ blocks, ∀ f ∈ b, Written f)
    (hscalar : ∀ b ∈ blocks, ∀ p ∈ block b, isScalar p = true) {r : EventReader} (hr : AtLine r) {bytes : List Nat}
    (hpre : bytes <+: wire blocks) :
    ∃ k, Arrived blocks bytes k ∧ ((⟨none, r⟩ : Connection).receive bytes).2 = (r.told (blocks.take k)).2 ∧
      ((⟨none, r⟩ : Connection).receive bytes).1.reader.lastEventId = (r.told (blocks.take k)).1.lastEventId := by
  induction blocks generalizing r bytes with
  | nil =>
    obtain rfl : bytes = [] := List.prefix_nil.mp hpre
    exact ⟨0, ⟨Nat.le_refl _, List.nil_prefix, fun h => absurd h (Nat.lt_irrefl _)⟩, rfl, rfl⟩
  | cons fields blocks ih =>
    obtain ⟨hfields, hwritten⟩ := List.forall_mem_cons.mp hwritten
    obtain ⟨hpoints, hscalar⟩ := List.forall_mem_cons.mp hscalar
    obtain ⟨rest, hrest⟩ := hpre
    rw [wire_cons] at hrest
    rcases List.append_eq_append_iff.mp hrest with ⟨more, hmore, -⟩ | ⟨more, hmore, hafter⟩
    · -- The first block is there whole, or not yet.
      by_cases hnone : more = []
      · subst hnone
        rw [List.append_nil] at hmore
        obtain ⟨k, harrived, htold, hid⟩ := ih hwritten hscalar (gathered_line hr fields).dispatch.toAtLine List.nil_prefix
        refine ⟨k + 1, ?_, ?_, ?_⟩
        · rw [← hmore, ← List.append_nil ((block fields).flatMap utf8)]
          exact harrived.cons
        · rw [← hmore, Connection.receive, utf8Feed_points hpoints, read_block hfields hr, List.take_succ_cons, told, ← htold]
          exact (List.append_nil _).symm
        · rw [← hmore, Connection.receive, utf8Feed_points hpoints, read_block hfields hr, List.take_succ_cons, told, ← hid]
          rfl
      · obtain ⟨j, hj, hfeed⟩ := utf8Feed_take hpoints hmore.symm hnone
        have hcut := read_cut hfields hr (List.take_append_drop j (block fields))
          (fun hnil => absurd (List.drop_eq_nil_iff.mp hnil) (Nat.not_le.mpr hj))
        refine ⟨0, ⟨Nat.zero_le _, List.nil_prefix, fun _ hwhole => ?_⟩, ?_, ?_⟩
        · rw [Nat.zero_add, List.take_succ_cons, List.take_zero, wire_cons, hmore, List.append_assoc] at hwhole
          have hle := hwhole.length_le
          have hpos := List.length_pos_iff.mpr hnone
          simp only [List.length_append] at hle
          omega
        · rw [Connection.receive, hfeed]
          exact hcut.1
        · rw [Connection.receive, hfeed]
          exact hcut.2
    · obtain ⟨k, harrived, htold, hid⟩ :=
        ih hwritten hscalar (gathered_line hr fields).dispatch.toAtLine ⟨rest, hafter.symm⟩
      refine ⟨k + 1, hmore ▸ harrived.cons, ?_, ?_⟩
      · rw [hmore, Connection.receive, utf8Feed_append, utf8Feed_points hpoints, read_append, read_block hfields hr,
          List.take_succ_cons, told, ← htold]
        rfl
      · rw [hmore, Connection.receive, utf8Feed_append, utf8Feed_points hpoints, read_append, read_block hfields hr,
          List.take_succ_cons, told, ← hid]
        rfl

/-- The same on a connection just opened, where the blocks begin with no byte order mark. -/
theorem receive_opened {blocks : List (List (List Nat × List Nat))} (hwritten : ∀ b ∈ blocks, ∀ f ∈ b, Written f)
    (hscalar : ∀ b ∈ blocks, ∀ p ∈ block b, isScalar p = true) (idBuffer lastEventId : List Nat)
    (hmark : (blocks.flatMap block).head? ≠ some BYTE_ORDER_MARK) {bytes : List Nat} (hpre : bytes <+: wire blocks) :
    ∃ k, Arrived blocks bytes k ∧
      ((Connection.opened idBuffer lastEventId).receive bytes).2 =
        (({ opened idBuffer lastEventId with begun := true } : EventReader).told (blocks.take k)).2 ∧
      ((Connection.opened idBuffer lastEventId).receive bytes).1.reader.lastEventId =
        (({ opened idBuffer lastEventId with begun := true } : EventReader).told (blocks.take k)).1.lastEventId := by
  have hpoints : ∀ p ∈ blocks.flatMap block, isScalar p = true := fun p hp =>
    let ⟨b, hb, hp⟩ := List.mem_flatMap.mp hp
    hscalar b hb p hp
  have hhead : (utf8Feed none bytes).1.head? ≠ some BYTE_ORDER_MARK := by
    obtain ⟨rest, hrest⟩ := hpre
    have hfed := congrArg Prod.fst (utf8Feed_append none bytes rest)
    rw [hrest, wire, utf8Feed_points hpoints] at hfed
    intro hfirst
    rw [show blocks.flatMap block = _ from hfed, List.head?_append, hfirst] at hmark
    exact hmark rfl
  obtain ⟨k, harrived, htold, hid⟩ := receive_wire (r := { opened idBuffer lastEventId with begun := true })
    hwritten hscalar ⟨rfl, rfl, rfl⟩ hpre
  obtain ⟨hsame, hsameId⟩ := read_begun (r := opened idBuffer lastEventId) hhead
  exact ⟨k, harrived, hsame.trans htold, hsameId.trans hid⟩

end EventReader

end Ccctl.Lib
