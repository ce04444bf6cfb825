import OpsSysd.StringBlock

/-!
The output of a command, read line by line up to the first line that is no
comment. The number of bytes that `getline` returns goes into an unsigned
variable, so the test for the end of the output never holds, and the last byte
of the line is overwritten whether or not it is a newline. What the loop finds
in memory that was not written is a parameter.
-/

namespace OpsSysd.SysCmdOut

open CString StringBlock

/-- `size_t` has 64 bits. -/
def sizeMax : ℕ := 2 ^ 64 - 1

/-- The bytes of memory that the `k`-th call of `getline` allocates and does not write. -/
structure Heap where
  fresh : ℕ → List UInt8
  small : ∀ k, (fresh k).length < 2 ^ 63

/-- A line with its newline, and what comes behind it. -/
def takeLine : CStr → CStr × CStr
  | [] => ([], [])
  | c :: rest =>
    if c = 10 then ([10], rest)
    else ((c :: (takeLine rest).1), (takeLine rest).2)

/-- What a call of `getline` leaves: its result as a `size_t`, the block, and the rest of
the stream. -/
structure Got where
  nbytes : ℕ
  buf : Block
  rest : CStr

/-- At the end of the stream the result is -1 and the new block is not written. -/
def getline (heap : Heap) (k : ℕ) (stream : CStr) : Got :=
  if stream = [] then ⟨sizeMax, heap.fresh k, []⟩
  else
    let line := (takeLine stream).1
    ⟨line.length, line ++ 0 :: heap.fresh k, (takeLine stream).2⟩

inductive Outcome
  | returned (output : Option Block)
  | outOfBounds
  deriving DecidableEq

/-- The loop from the `k`-th call on; it has no result when the fuel does not suffice. -/
def readLines (heap : Heap) : ℕ → ℕ → CStr → Option Outcome
  | 0, _, _ => none
  | fuel + 1, k, stream =>
    let got := getline heap k stream
    if got.nbytes ≤ 0 then some (.returned none)
    else
      match got.buf with
      | [] => some .outOfBounds
      | c :: _ =>
        if c = 35 then readLines heap fuel (k + 1) got.rest
        else if c ≠ 0 then
          if got.nbytes - 1 < got.buf.length then
            some (.returned (some (got.buf.set (got.nbytes - 1) 0)))
          else some .outOfBounds
        else readLines heap fuel (k + 1) got.rest

/-- `none` for the stream is a failure of `popen`. -/
def getSysCmdOut (heap : Heap) (fuel : ℕ) : Option CStr → Option Outcome
  | none => some (.returned none)
  | some stream => readLines heap fuel 0 stream

/-- The lines of a stream, each with its newline if it has one. -/
def rawLines : CStr → List CStr
  | [] => []
  | c :: rest =>
    if c = 10 then [10] :: rawLines rest
    else
      match rawLines rest with
      | [] => [[c]]
      | line :: lines => (c :: line) :: lines

def isComment (line : CStr) : Bool := line.head? = some 35

/-- The first line that is no comment. -/
def firstLine (stream : CStr) : Option CStr := (rawLines stream).find? (fun l => ¬ isComment l)

def stripNewline (line : CStr) : CStr := if line.getLast? = some 10 then line.dropLast else line

/-- The loop ends, and `*output` is the first line without its newline, or NULL if there is
none. -/
def Meets (heap : Heap) (stream : CStr) : Prop :=
  ∃ fuel output, getSysCmdOut heap fuel (some stream) = some (.returned output) ∧
    match (firstLine stream).map stripNewline with
    | none => output = none
    | some line => ∃ block, output = some block ∧ strAt block 0 = some line

section Lines

theorem takeLine_fst_ne_nil {stream : CStr} (h : stream ≠ []) : (takeLine stream).1 ≠ [] := by
  cases stream with
  | nil => exact absurd rfl h
  | cons c rest =>
    rw [takeLine]
    split_ifs
    · exact List.cons_ne_nil _ _
    · exact List.cons_ne_nil _ _

theorem takeLine_append (stream : CStr) : (takeLine stream).1 ++ (takeLine stream).2 = stream := by
  induction stream with
  | nil => rfl
  | cons c rest ih =>
    rw [takeLine]
    split_ifs with hc
    · rw [hc]
      rfl
    · exact congrArg (c :: ·) ih

/-- The first call reads the first line. -/
theorem rawLines_eq_cons {stream : CStr} (h : stream ≠ []) :
    rawLines stream = (takeLine stream).1 :: rawLines (takeLine stream).2 := by
  induction stream with
  | nil => exact absurd rfl h
  | cons c rest ih =>
    rw [rawLines, takeLine]
    split_ifs with hc
    · rfl
    · cases rest with
      | nil => rfl
      | cons c' rest => rw [ih (List.cons_ne_nil c' rest)]

/-- Induction over the lines of a stream. -/
theorem lines_induction {motive : CStr → Prop} (nil : motive [])
    (line : ∀ stream, stream ≠ [] → motive (takeLine stream).2 → motive stream)
    (stream : CStr) : motive stream := by
  induction hn : stream.length using Nat.strong_induction_on generalizing stream with
  | _ n ih =>
    by_cases hne : stream = []
    · rw [hne]
      exact nil
    · apply line stream hne
      have hpos := List.length_pos_of_ne_nil (takeLine_fst_ne_nil hne)
      have hlength := congrArg List.length (takeLine_append stream)
      rw [List.length_append] at hlength
      exact ih _ (by omega) _ rfl

theorem firstLine_eq {stream : CStr} (h : stream ≠ []) :
    firstLine stream =
      if isComment (takeLine stream).1 then firstLine (takeLine stream).2
      else some (takeLine stream).1 := by
  rw [firstLine, rawLines_eq_cons h, List.find?_cons]
  cases isComment (takeLine stream).1 <;> rfl

theorem firstLine_ne_nil {stream line : CStr} (h : firstLine stream = some line) : line ≠ [] := by
  induction stream using lines_induction with
  | nil => cases h
  | line stream hne ih =>
    rw [firstLine_eq hne] at h
    split_ifs at h
    · exact ih h
    · cases h
      exact takeLine_fst_ne_nil hne

/-- Only a line that ends with its newline loses nothing else with its last byte. -/
theorem stripNewline_eq_dropLast_iff {line : CStr} (h : line ≠ []) :
    stripNewline line = line.dropLast ↔ line.getLast? = some 10 := by
  unfold stripNewline
  split_ifs with hnewline
  · exact iff_of_true rfl hnewline
  · refine iff_of_false (fun heq => ?_) hnewline
    have hlength := congrArg List.length heq
    have hpos := List.length_pos_of_ne_nil h
    rw [List.length_dropLast] at hlength
    omega

theorem notMem_takeLine {stream : CStr} {b : UInt8} (h : b ∉ stream) :
    b ∉ (takeLine stream).1 ∧ b ∉ (takeLine stream).2 := by
  rw [← takeLine_append stream, List.mem_append] at h
  exact not_or.mp h

end Lines

section Reads

variable (heap : Heap)

theorem set_length_sub_one {l : List UInt8} (hl : l ≠ []) (b : UInt8) (after : List UInt8) :
    (l ++ after).set (l.length - 1) b = l.dropLast ++ b :: after := by
  obtain ⟨init, last, rfl⟩ := (List.eq_nil_or_concat l).resolve_left hl
  simp

theorem readLines_line {stream : CStr} (hne : stream ≠ []) (hnul : 0 ∉ stream) (fuel k : ℕ) :
    readLines heap (fuel + 1) k stream =
      if isComment (takeLine stream).1 then readLines heap fuel (k + 1) (takeLine stream).2
      else some (.returned (some ((takeLine stream).1.dropLast ++ 0 :: 0 :: heap.fresh k))) := by
  have hline := takeLine_fst_ne_nil hne
  have hset := set_length_sub_one hline 0 (0 :: heap.fresh k)
  have hnulLine := (notMem_takeLine hnul).1
  rw [readLines, getline, if_neg hne]
  generalize hl : (takeLine stream).1 = l at *
  obtain ⟨c, t, rfl⟩ := List.exists_cons_of_ne_nil hline
  have hpos : ¬ (c :: t).length ≤ 0 := by simp
  have hc : c ≠ 0 := fun h0 => hnulLine (h0 ▸ List.mem_cons_self)
  have hbound : (c :: t).length - 1 < (c :: t ++ 0 :: heap.fresh k).length := by
    simp only [List.length_append, List.length_cons]
    omega
  have hcomment : isComment (c :: t) = true ↔ c = 35 := by simp [isComment]
  simp only [hpos, if_false, List.cons_append]
  by_cases h35 : c = 35
  · rw [if_pos h35, if_pos (hcomment.mpr h35)]
  · rw [if_neg h35, if_pos hc, if_neg (fun h => h35 (hcomment.mp h)), ← List.cons_append,
      if_pos hbound, hset]

/-- At the end of the stream the loop goes on, or it stores in front of the block. -/
theorem readLines_nil (fuel k : ℕ) :
    readLines heap fuel k [] = none ∨ readLines heap fuel k [] = some .outOfBounds := by
  induction fuel generalizing k with
  | zero => exact Or.inl rfl
  | succ fuel ih =>
    have hnbytes : ¬ sizeMax ≤ 0 := by decide
    have hbound : ¬ sizeMax - 1 < (heap.fresh k).length := by
      have := heap.small k
      unfold sizeMax
      omega
    rw [readLines, getline, if_pos rfl]
    simp only [hnbytes, if_false]
    cases hbuf : heap.fresh k with
    | nil => exact Or.inr rfl
    | cons c t =>
      rw [hbuf] at hbound
      simp only [hbound, if_false]
      split_ifs
      · exact ih (k + 1)
      · exact Or.inr rfl
      · exact ih (k + 1)

/-- Without a line to return the loop does not return. -/
theorem readLines_none {stream : CStr} (hnul : 0 ∉ stream) (h : firstLine stream = none)
    (fuel k : ℕ) :
    readLines heap fuel k stream = none ∨ readLines heap fuel k stream = some .outOfBounds := by
  induction stream using lines_induction generalizing fuel k with
  | nil => exact readLines_nil heap fuel k
  | line stream hne ih =>
    cases fuel with
    | zero => exact Or.inl rfl
    | succ fuel =>
      rw [firstLine_eq hne] at h
      split_ifs at h with hcomment
      rw [readLines_line heap hne hnul, if_pos hcomment]
      exact ih (notMem_takeLine hnul).2 h fuel (k + 1)

/-- The loop returns the first line that is no comment with its last byte cut off. -/
theorem readLines_some {stream line : CStr} (hnul : 0 ∉ stream)
    (h : firstLine stream = some line) (k : ℕ) :
    ∃ block, strAt block 0 = some line.dropLast ∧
      (∃ fuel, readLines heap fuel k stream = some (.returned (some block))) ∧
      ∀ fuel, readLines heap fuel k stream = none ∨
        readLines heap fuel k stream = some (.returned (some block)) := by
  induction stream using lines_induction generalizing k with
  | nil => cases h
  | line stream hne ih =>
    rw [firstLine_eq hne] at h
    split_ifs at h with hcomment
    · obtain ⟨block, hstr, ⟨fuel, hrun⟩, hall⟩ := ih (notMem_takeLine hnul).2 h (k + 1)
      refine ⟨block, hstr, ⟨fuel + 1, ?_⟩, fun fuel' => ?_⟩
      · rw [readLines_line heap hne hnul, if_pos hcomment, hrun]
      · cases fuel' with
        | zero => exact Or.inl rfl
        | succ fuel' =>
          rw [readLines_line heap hne hnul, if_pos hcomment]
          exact hall fuel'
    · cases h
      have hnulLine : 0 ∉ (takeLine stream).1.dropLast := fun h0 =>
        (notMem_takeLine hnul).1 (List.mem_of_mem_dropLast h0)
      refine ⟨_, strAt_zero hnulLine (0 :: heap.fresh k), ⟨1, ?_⟩, fun fuel => ?_⟩
      · rw [readLines_line heap hne hnul, if_neg hcomment]
      · cases fuel with
        | zero => exact Or.inl rfl
        | succ fuel =>
          rw [readLines_line heap hne hnul, if_neg hcomment]
          exact Or.inr rfl

end Reads

section Meets

/-- A loop that returns what it should has read a line with a newline. -/
theorem newline_of_meets {heap : Heap} {stream : CStr} (hnul : 0 ∉ stream)
    (h : Meets heap stream) :
    ∃ line, firstLine stream = some line ∧ line.getLast? = some 10 := by
  obtain ⟨fuel, output, hrun, houtput⟩ := h
  rw [getSysCmdOut] at hrun
  cases hfirst : firstLine stream with
  | none =>
    rcases readLines_none heap hnul hfirst fuel 0 with hnone | hout
    · exact absurd (hrun.symm.trans hnone) (by simp)
    · exact absurd (hrun.symm.trans hout) (by simp)
  | some line =>
    obtain ⟨block, hstr, _, hall⟩ := readLines_some heap hnul hfirst 0
    rw [hfirst] at houtput
    obtain ⟨block', rfl, hstr'⟩ := houtput
    refine ⟨line, rfl, (stripNewline_eq_dropLast_iff (firstLine_ne_nil hfirst)).mp ?_⟩
    rcases hall fuel with hnone | hsome
    · exact absurd (hrun.symm.trans hnone) (by simp)
    · cases hrun.symm.trans hsome
      exact Option.some.inj (hstr'.symm.trans hstr)

/-- The output is as it should be exactly if there is a line that is no comment and it
ends with a newline. -/
theorem getSysCmdOut_meets_iff (heap : Heap) {stream : CStr} (hnul : 0 ∉ stream) :
    Meets heap stream ↔ ∃ line, firstLine stream = some line ∧ line.getLast? = some 10 := by
  constructor
  · exact newline_of_meets hnul
  · rintro ⟨line, hfirst, hnewline⟩
    obtain ⟨block, hstr, ⟨fuel, hrun⟩, _⟩ := readLines_some heap hnul hfirst 0
    refine ⟨fuel, some block, hrun, ?_⟩
    rw [hfirst, Option.map_some, stripNewline, if_pos hnewline]
    exact ⟨block, rfl, hstr⟩

/-- New blocks of 120 bytes that are clear. -/
def clearHeap : Heap where
  fresh := fun _ => List.replicate 120 0
  small := by
    intro _
    rw [List.length_replicate]
    decide

/-- Comments before the line are skipped. -/
theorem getSysCmdOut_meets_comment : Meets clearHeap (cstr "# Dell\nS6000\n") :=
  (getSysCmdOut_meets_iff clearHeap (by decide)).mpr ⟨cstr "S6000\n", by decide, by decide⟩

/-- A last line without a newline loses a byte, and at the end of the output the loop does
not return. -/
theorem getSysCmdOut_not_meets :
    ¬ Meets clearHeap (cstr "S6000") ∧ ¬ Meets clearHeap (cstr "# Dell\n") ∧
      ¬ Meets clearHeap [] := by
  refine ⟨fun h => ?_, fun h => ?_, fun h => ?_⟩
  · obtain ⟨line, hline, hnewline⟩ := newline_of_meets (by decide) h
    have hfirst : firstLine (cstr "S6000") = some (cstr "S6000") := by decide
    cases hfirst.symm.trans hline
    exact absurd hnewline (by decide)
  · obtain ⟨line, hline, _⟩ := newline_of_meets (by decide) h
    have hfirst : firstLine (cstr "# Dell\n") = none := by decide
    cases hfirst.symm.trans hline
  · obtain ⟨line, hline, _⟩ := newline_of_meets (by decide) h
    cases hline

end Meets

end OpsSysd.SysCmdOut
