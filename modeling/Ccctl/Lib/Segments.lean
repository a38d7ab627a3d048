import Mathlib.Data.List.Basic
/-
  Ccctl.Lib.Segments — splitting a stream at a separator, chunk by chunk.

  `drain` cuts a buffer at its separators: it hands every complete segment to `emit` and keeps
  what follows the last separator. `feedAll` appends each chunk to what is kept and drains
  again. However the stream is cut into chunks, what was emitted, with the last partial
  segment emitted at the end, is what the segments of the whole stream emit (`feedAll_emits`).
-/

namespace Ccctl.Lib.Segments

variable {α β : Type} [DecidableEq α] (sep : α)

/-- The segment before the first separator, and what follows that separator. -/
def cut : List α → Option (List α × List α)
  | [] => none
  | u :: rest => if u = sep then some ([], rest) else (cut rest).map fun r => (u :: r.1, r.2)

variable {sep}

theorem cut_none {s : List α} (h : cut sep s = none) : sep ∉ s := by
  induction s with
  | nil => simp
  | cons u rest ih =>
    rw [cut] at h
    split at h
    · cases h
    · rename_i hu
      have hrest := ih (by simpa using h)
      simp only [List.mem_cons, not_or]
      exact ⟨fun heq => hu heq.symm, hrest⟩

theorem cut_some {s : List α} {r : List α × List α} (h : cut sep s = some r) : s = r.1 ++ sep :: r.2 ∧ sep ∉ r.1 := by
  induction s generalizing r with
  | nil => cases h
  | cons u rest ih =>
    rw [cut] at h
    split at h
    · rename_i hu
      cases h
      simp [hu]
    · rename_i hu
      obtain ⟨r', hr', rfl⟩ := Option.map_eq_some_iff.mp h
      obtain ⟨hsplit, hnot⟩ := ih hr'
      refine ⟨by rw [hsplit]; rfl, ?_⟩
      simp only [List.mem_cons, not_or]
      exact ⟨fun heq => hu heq.symm, hnot⟩

omit [DecidableEq α] in
/-- What precedes the first separator is one reading only. -/
theorem append_sep_inj {before before' after after' : List α} (h : sep ∉ before) (h' : sep ∉ before')
    (heq : before ++ sep :: after = before' ++ sep :: after') : before = before' ∧ after = after' := by
  induction before generalizing before' with
  | nil =>
    cases before' with
    | nil => exact ⟨rfl, (List.cons.inj heq).2⟩
    | cons u rest => exact absurd ((List.cons.inj heq).1 ▸ List.mem_cons_self) h'
  | cons u before ih =>
    cases before' with
    | nil => exact absurd ((List.cons.inj heq).1 ▸ List.mem_cons_self) h
    | cons v before' =>
      obtain ⟨rfl, hrest⟩ := List.cons.inj heq
      obtain ⟨rfl, hafter⟩ := ih (fun hmem => h (List.mem_cons_of_mem _ hmem))
        (fun hmem => h' (List.mem_cons_of_mem _ hmem)) hrest
      exact ⟨rfl, hafter⟩

theorem cut_length {s : List α} {r : List α × List α} (h : cut sep s = some r) : r.2.length < s.length := by
  rw [(cut_some h).1, List.length_append, List.length_cons]
  omega

variable (sep) (emit : List α → List β)

/-- Every complete segment of the buffer emitted, and what is kept of it. -/
def drain (buffer : List α) : List β × List α :=
  match _h : cut sep buffer with
  | none => ([], buffer)
  | some r => (emit r.1 ++ (drain r.2).1, (drain r.2).2)
termination_by buffer.length
decreasing_by all_goals exact cut_length _h

/-- The chunks one after another, from what is kept so far. -/
def feedAll (buffer : List α) : List (List α) → List β × List α
  | [] => ([], buffer)
  | chunk :: rest =>
    ((drain sep emit (buffer ++ chunk)).1 ++ (feedAll (drain sep emit (buffer ++ chunk)).2 rest).1,
      (feedAll (drain sep emit (buffer ++ chunk)).2 rest).2)

/-- What the segments of a whole text emit. -/
def emitted (text : List α) : List β := (text.splitOn sep).flatMap emit

variable {sep}

theorem mem_splitOn {text segment : List α} (h : segment ∈ text.splitOn sep) :
    sep ∉ segment ∧ ∀ u ∈ segment, u ∈ text := by
  induction text generalizing segment with
  | nil =>
    rw [List.splitOn_nil, List.mem_singleton] at h
    simp [h]
  | cons u text ih =>
    obtain ⟨first, others, hsplit⟩ := List.exists_cons_of_ne_nil (List.splitOn_ne_nil sep text)
    rw [List.splitOn_cons_eq_if_modifyHead, hsplit] at h
    rw [hsplit] at ih
    have hlater : ∀ segment ∈ first :: others, sep ∉ segment ∧ ∀ v ∈ segment, v ∈ u :: text := fun segment hsegment =>
      ⟨(ih hsegment).1, fun v hv => List.mem_cons_of_mem u ((ih hsegment).2 v hv)⟩
    split at h
    · rcases List.mem_cons.mp h with rfl | h
      · simp
      · exact hlater segment h
    · rename_i hu
      rcases List.mem_cons.mp h with rfl | h
      · obtain ⟨hnot, hmem⟩ := hlater first List.mem_cons_self
        refine ⟨?_, fun v hv => ?_⟩
        · rw [List.mem_cons, not_or]
          exact ⟨fun heq => hu (by simp [heq]), hnot⟩
        · rcases List.mem_cons.mp hv with rfl | hv
          · exact List.mem_cons_self
          · exact hmem v hv
      · exact hlater segment (List.mem_cons_of_mem first h)

/-- What a text splits into is what it is joined of. -/
theorem splitOn_eq_iff {text : List α} {segments : List (List α)} (hne : segments ≠ []) :
    text.splitOn sep = segments ↔ text = [sep].intercalate segments ∧ ∀ segment ∈ segments, sep ∉ segment := by
  refine ⟨fun h => ?_, fun ⟨h, hfree⟩ => ?_⟩
  · subst h
    exact ⟨(List.intercalate_splitOn sep).symm, fun segment hsegment => (mem_splitOn hsegment).1⟩
  · rw [h, List.splitOn_intercalate sep hfree hne]

theorem emitted_single {s : List α} (h : sep ∉ s) : emitted sep emit s = emit s := by
  simp [emitted, List.splitOn_eq_singleton h]

theorem emitted_append_sep (s t : List α) : emitted sep emit (s ++ sep :: t) = emitted sep emit s ++ emitted sep emit t := by
  simp [emitted, List.splitOn_append_cons_self]

theorem drain_none {buffer : List α} (h : cut sep buffer = none) : drain sep emit buffer = ([], buffer) := by
  unfold drain
  split
  · rfl
  · rename_i h'
    rw [h] at h'
    cases h'

theorem drain_some {buffer : List α} {r : List α × List α} (h : cut sep buffer = some r) :
    drain sep emit buffer = (emit r.1 ++ (drain sep emit r.2).1, (drain sep emit r.2).2) := by
  conv_lhs => unfold drain
  split
  · rename_i h'
    rw [h] at h'
    cases h'
  · rename_i h'
    rw [h] at h'
    cases h'
    rfl

/-- What is kept is a partial segment. -/
theorem drain_rest (buffer : List α) : sep ∉ (drain sep emit buffer).2 := by
  induction buffer using drain.induct sep with
  | case1 buffer h =>
    rw [drain_none emit h]
    exact cut_none h
  | case2 buffer r h ih =>
    rw [drain_some emit h]
    exact ih

/-- Draining takes nothing from what the text emits, whatever follows the buffer. -/
theorem drain_emits (buffer rest : List α) :
    emitted sep emit (buffer ++ rest) =
      (drain sep emit buffer).1 ++ emitted sep emit ((drain sep emit buffer).2 ++ rest) := by
  induction buffer using drain.induct sep with
  | case1 buffer h => rw [drain_none emit h, List.nil_append]
  | case2 buffer r h ih =>
    obtain ⟨hsplit, hnot⟩ := cut_some h
    have happ : buffer ++ rest = r.1 ++ sep :: (r.2 ++ rest) := by simp [hsplit]
    rw [drain_some emit h, happ, emitted_append_sep, emitted_single emit hnot, ih, List.append_assoc]

/-- A stream emits the same however it is cut into chunks. -/
theorem feedAll_emits {buffer : List α} (h : sep ∉ buffer) (chunks : List (List α)) :
    (feedAll sep emit buffer chunks).1 ++ emit (feedAll sep emit buffer chunks).2 =
      emitted sep emit (buffer ++ chunks.flatten) := by
  induction chunks generalizing buffer with
  | nil => simp [feedAll, emitted_single emit h]
  | cons chunk rest ih =>
    have hkept : sep ∉ _ := drain_rest emit (buffer ++ chunk)
    rw [feedAll, List.append_assoc, ih hkept, ← drain_emits, List.flatten_cons, List.append_assoc]

/-- Segments that were joined at the separator emit one after another. -/
theorem emitted_joined (segments : List (List α)) (h : ∀ s ∈ segments, sep ∉ s) (hne : segments ≠ []) :
    emitted sep emit ([sep].intercalate segments) = segments.flatMap emit := by
  rw [emitted, List.splitOn_intercalate sep h hne]

end Ccctl.Lib.Segments
