import Mathlib.Algebra.GroupWithZero.Nat
import Mathlib.Data.List.Basic

/-!
# Event streams

The text format of Server-Sent Events, as far as the data of the events goes.

* `EventStream.linesFrom`: the lines of a text, which end at CR, LF or CRLF;
* `EventStream.dataField?`: the value of a line `data: value`;
* `EventStream.eventsFrom`: the events in a list of lines. The data lines of an event are joined by
  LF, a blank line dispatches it;
* `EventStream.decode`, `EventStream.decodeBytes`: what a client receives;
* `EventStream.frame`: an event with its data on one line.

`EventStream.decode_flatMap_frame_iff`: framed data arrive as they were sent exactly if none of them
has a line end in it.
-/

namespace EventStream

/-! ## Decoding -/

/-- The characters that end a line. -/
def isLineEnd (c : Char) : Bool := c = '\r' || c = '\n'

/-- The lines of a text, the first of which has begun with `line`. -/
def linesFrom (line : List Char) : List Char → List (List Char)
  -- a line that has not ended is none
  | [] => []
  | '\r' :: '\n' :: s => line :: linesFrom [] s
  | c :: s => if isLineEnd c then line :: linesFrom [] s else linesFrom (line ++ [c]) s

/-- The value of a field: a space after the colon is not part of it. -/
def fieldValue : List Char → List Char
  | ' ' :: value => value
  | value => value

/-- The value of a data field, if the line is one. The name of a field ends at the first colon. -/
def dataField? (line : List Char) : Option (List Char) :=
  if line.takeWhile (· ≠ ':') = "data".toList then
    some (fieldValue (line.dropWhile (· ≠ ':')).tail)
  -- a comment, or a field that is not about the data
  else none

/-- The data of an event, with one more line of it. -/
def addLine : Option (List Char) → List Char → List Char
  | none, value => value
  | some data, value => data ++ '\n' :: value

/-- The data of the events in a list of lines. `data` is the data of the event that has begun, if it
has any so far. -/
def eventsFrom (data : Option (List Char)) : List (List Char) → List (List Char)
  -- an event that has not been dispatched is discarded
  | [] => []
  -- a blank line dispatches the event, if it has data
  | [] :: lines => data.toList ++ eventsFrom none lines
  | line :: lines =>
    match dataField? line with
    | some value => eventsFrom (some (addLine data value)) lines
    | none => eventsFrom data lines

/-- The data of the events in a text. -/
def decode (text : List Char) : List (List Char) := eventsFrom none (linesFrom [] text)

/-- The data of the events in a sequence of bytes, if it is UTF-8. -/
def decodeBytes (bytes : ByteArray) : Option (List (List Char)) :=
  bytes.utf8Decode?.map fun text => decode text.toList

/-- The text of an event with its data on one line. -/
def frame (data : List Char) : List Char := "data: ".toList ++ data ++ "\n\n".toList

/-- `decodeBytes` of the UTF-8 bytes of a text is `decode` of the text. -/
@[simp]
theorem decodeBytes_utf8Encode (text : List Char) :
    decodeBytes text.utf8Encode = some (decode text) := by
  rw [decodeBytes, List.utf8Decode?_utf8Encode, Option.map_some]

/-! ## Lines -/

/-- The text has no line end in it. -/
def OneLine (text : List Char) : Prop := ∀ c ∈ text, isLineEnd c = false

instance : DecidablePred OneLine := fun text =>
  List.decidableBAll (fun c => isLineEnd c = false) text

/-- `OneLine` of a text, character by character: none of them is a line end. -/
theorem oneLine_cons_iff {c : Char} {text : List Char} :
    OneLine (c :: text) ↔ isLineEnd c = false ∧ OneLine text := List.forall_mem_cons

/-- `linesFrom` puts a character that is no line end at the end of the line that has begun. -/
theorem linesFrom_cons_of_not_isLineEnd {c : Char} (hc : isLineEnd c = false)
    (line s : List Char) : linesFrom line (c :: s) = linesFrom (line ++ [c]) s := by
  rw [linesFrom]
  · rw [hc, if_neg Bool.false_ne_true]
  · rintro s' rfl
    exact absurd hc (by decide)

/-- `linesFrom` begins a new line at a line end, unless this is the CR of a CRLF, which ends its
line with the LF. -/
theorem linesFrom_cons_of_isLineEnd {c : Char} (hc : isLineEnd c) {s : List Char}
    (hs : c = '\r' → s.head? ≠ some '\n') (line : List Char) :
    linesFrom line (c :: s) = line :: linesFrom [] s := by
  rw [linesFrom]
  · rw [hc, if_pos rfl]
  · rintro s' rfl rfl
    exact hs rfl rfl

/-- `linesFrom` at a line end in front of an LF: the two are one CRLF, or the rest is divided as it
would be on its own. -/
theorem linesFrom_lineEnd_append {c : Char} (hc : isLineEnd c) {s : List Char}
    (hs : ∀ s', c = '\r' → s = '\n' :: s' → False) (line : List Char) :
    (s = [] ∧ c = '\r') ∨
      ∀ t, linesFrom line (c :: (s ++ '\n' :: t)) = line :: linesFrom [] (s ++ '\n' :: t) := by
  by_cases hlast : s = [] ∧ c = '\r'
  · exact .inl hlast
  · refine .inr fun t => linesFrom_cons_of_isLineEnd hc (fun hcr => ?_) line
    cases s with
    | nil => exact absurd ⟨rfl, hcr⟩ hlast
    | cons d s =>
      intro hd
      obtain rfl := Option.some.inj hd
      exact hs s hcr rfl

/-- At an LF the text falls into two parts whose lines have nothing to do with each other. -/
theorem linesFrom_append (line s t : List Char) :
    linesFrom line (s ++ '\n' :: t) = linesFrom line (s ++ ['\n']) ++ linesFrom [] t := by
  induction line, s using linesFrom.induct with
  | case1 line => rfl
  | case2 line s ih => exact congrArg (List.cons line) ih
  | case3 line c s hs hc ih =>
    obtain ⟨rfl, rfl⟩ | hline := linesFrom_lineEnd_append hc hs line
    · rfl
    · rw [List.cons_append, List.cons_append, hline, hline, ih, List.cons_append]
  | case4 line c s hs hc ih =>
    have hc : isLineEnd c = false := Bool.eq_false_iff.mpr hc
    rw [List.cons_append, List.cons_append, linesFrom_cons_of_not_isLineEnd hc,
      linesFrom_cons_of_not_isLineEnd hc, ih]

/-- A text that is `OneLine`, with an LF behind it, is one line. -/
theorem linesFrom_of_oneLine {s : List Char} (hs : OneLine s) (line : List Char) :
    linesFrom line (s ++ ['\n']) = [line ++ s] := by
  induction s generalizing line with
  | nil => rw [List.append_nil]; rfl
  | cons c s ih =>
    obtain ⟨hc, hs⟩ := oneLine_cons_iff.mp hs
    rw [List.cons_append, linesFrom_cons_of_not_isLineEnd hc, ih hs, List.append_assoc]
    rfl

/-- The sum of the lengths of the lines. -/
def size (lines : List (List Char)) : ℕ := (lines.map List.length).sum

@[simp]
theorem size_nil : size [] = 0 := rfl

@[simp]
theorem size_cons (line : List Char) (lines : List (List Char)) :
    size (line :: lines) = line.length + size lines := rfl

/-- The lines of a text have no more characters than the text: the line ends are not part of
them. -/
theorem size_linesFrom_le (line s : List Char) :
    size (linesFrom line (s ++ ['\n'])) ≤ line.length + s.length := by
  induction line, s using linesFrom.induct with
  | case1 line => exact Nat.le_refl _
  | case2 line s ih =>
    rw [List.cons_append, List.cons_append, linesFrom, size_cons]
    simp only [List.length_nil, List.length_cons] at ih ⊢
    omega
  | case3 line c s hs hc ih =>
    obtain ⟨rfl, rfl⟩ | hline := linesFrom_lineEnd_append hc hs line
    · exact Nat.le_succ _
    · rw [List.cons_append, hline, size_cons]
      simp only [List.length_nil, List.length_cons] at ih ⊢
      omega
  | case4 line c s hs hc ih =>
    rw [List.cons_append, linesFrom_cons_of_not_isLineEnd (Bool.eq_false_iff.mpr hc)]
    simp only [List.length_append, List.length_cons, List.length_nil] at ih ⊢
    omega

/-- A text that is not `OneLine` is cut at its first line end, which is lost: what is in the lines
is shorter than the text. -/
theorem exists_linesFrom_eq_cons {s : List Char} (hs : ¬OneLine s) (line : List Char) :
    ∃ first rest, linesFrom line (s ++ ['\n']) = (line ++ first) :: rest ∧
      first.length + size rest < s.length := by
  induction line, s using linesFrom.induct with
  | case1 line => exact absurd (List.forall_mem_nil _) hs
  | case2 line s ih =>
    refine ⟨[], linesFrom [] (s ++ ['\n']), by rw [List.append_nil]; rfl, ?_⟩
    have hsize := size_linesFrom_le [] s
    simp only [List.length_nil, List.length_cons] at hsize ⊢
    omega
  | case3 line c s hcrlf hc ih =>
    obtain ⟨rfl, rfl⟩ | hline := linesFrom_lineEnd_append hc hcrlf line
    · exact ⟨[], [], by rw [List.append_nil]; rfl, Nat.one_pos⟩
    · refine ⟨[], linesFrom [] (s ++ ['\n']), by rw [List.append_nil]; exact hline [], ?_⟩
      have hsize := size_linesFrom_le [] s
      simp only [List.length_nil, List.length_cons] at hsize ⊢
      omega
  | case4 line c s hcrlf hc ih =>
    have hc : isLineEnd c = false := Bool.eq_false_iff.mpr hc
    have hs : ¬OneLine s := fun h => hs (oneLine_cons_iff.mpr ⟨hc, h⟩)
    obtain ⟨first, rest, heq, hlength⟩ := ih hs
    refine ⟨c :: first, rest, ?_, ?_⟩
    · rw [List.cons_append, linesFrom_cons_of_not_isLineEnd hc, heq, List.append_assoc]
      rfl
    · simp only [List.length_cons]
      omega

/-! ## Events -/

/-- `eventsFrom` ends an event at a blank line and begins the next one with no data. -/
theorem eventsFrom_append (data : Option (List Char)) (lines lines' : List (List Char)) :
    eventsFrom data (lines ++ [] :: lines') =
      eventsFrom data (lines ++ [[]]) ++ eventsFrom none lines' := by
  induction data, lines using eventsFrom.induct with
  | case1 data => simp [eventsFrom]
  | case2 data lines ih => simp [eventsFrom, ih]
  | case3 data line lines hne value hvalue ih =>
    rw [List.cons_append, List.cons_append, eventsFrom, eventsFrom, hvalue]
    · exact ih
    · exact hne
    · exact hne
  | case4 data line lines hne hvalue ih =>
    rw [List.cons_append, List.cons_append, eventsFrom, eventsFrom, hvalue]
    · exact ih
    · exact hne
    · exact hne

/-- `fieldValue` takes off one blank at most, so it is no longer than what stands behind the
colon. -/
theorem length_fieldValue_le (value : List Char) : (fieldValue value).length ≤ value.length := by
  unfold fieldValue
  split
  · exact Nat.le_succ _
  · exact Nat.le_refl _

/-- A line that `dataField?` recognises is longer than its value, by the name of the field. -/
theorem length_lt_of_dataField? {line value : List Char} (h : dataField? line = some value) :
    value.length < line.length := by
  unfold dataField? at h
  split_ifs at h with hname
  obtain rfl := Option.some.inj h
  have hline := congrArg List.length
    (List.takeWhile_append_dropWhile (p := (· ≠ ':')) (l := line))
  have hdata : (line.takeWhile (· ≠ ':')).length = 4 := congrArg List.length hname
  have hvalue := length_fieldValue_le (line.dropWhile (· ≠ ':')).tail
  rw [List.length_append, hdata] at hline
  rw [List.length_tail] at hvalue
  omega

/-- An event that has data is dispatched by the next blank line, and is no longer than what has been
read. -/
theorem exists_eventsFrom_eq_cons (data : List Char) (lines : List (List Char)) :
    ∃ event events, eventsFrom (some data) (lines ++ [[]]) = event :: events ∧
      event.length ≤ data.length + size lines := by
  induction lines generalizing data with
  | nil => exact ⟨data, [], rfl, Nat.le_refl _⟩
  | cons line lines ih =>
    by_cases hline : line = []
    · obtain rfl := hline
      exact ⟨data, eventsFrom none (lines ++ [[]]), rfl, Nat.le_add_right _ _⟩
    rw [List.cons_append, eventsFrom.eq_3 _ _ _ hline]
    cases hvalue : dataField? line with
    | none =>
      obtain ⟨event, events, heq, hlength⟩ := ih data
      exact ⟨event, events, heq, by rw [size_cons]; omega⟩
    | some value =>
      obtain ⟨event, events, heq, hlength⟩ := ih (addLine (some data) value)
      refine ⟨event, events, heq, ?_⟩
      -- the LF that joins the values takes the place of the name of the field
      have hlt := length_lt_of_dataField? hvalue
      simp only [addLine, List.length_append, List.length_cons] at hlength
      rw [size_cons]
      omega

/-! ## Frames -/

variable {data : List Char}

/-- The lines of a `frame` are those of its data behind `data: `, and a blank one that ends the
event. -/
theorem linesFrom_frame_append (data text : List Char) :
    linesFrom [] (frame data ++ text) =
      linesFrom "data: ".toList (data ++ ['\n']) ++ [] :: linesFrom [] text := by
  have hframe : frame data ++ text = ("data: ".toList ++ data) ++ '\n' :: '\n' :: text :=
    List.append_assoc _ _ _
  rw [hframe, linesFrom_append]
  rfl

/-- A `frame` is decoded on its own, whatever text follows it. -/
theorem decode_frame_append (data text : List Char) :
    decode (frame data ++ text) = decode (frame data) ++ decode text := by
  have hframe := linesFrom_frame_append data []
  rw [List.append_nil] at hframe
  rw [decode, linesFrom_frame_append, eventsFrom_append, decode, hframe]
  rfl

/-- `decode` of a `frame` gives back data that are `OneLine`. -/
theorem decode_frame_of_oneLine (h : OneLine data) : decode (frame data) = [data] := by
  have hframe := linesFrom_frame_append data []
  rw [List.append_nil, linesFrom_of_oneLine h] at hframe
  rw [decode, hframe]
  rfl

/-- `decode` of a `frame` gives an event shorter than the data, if these are not `OneLine`. -/
theorem exists_decode_frame_of_not_oneLine (h : ¬OneLine data) :
    ∃ event events, decode (frame data) = event :: events ∧ event.length < data.length := by
  obtain ⟨first, rest, hlines, hlength⟩ := exists_linesFrom_eq_cons h "data: ".toList
  obtain ⟨event, events, heq, hle⟩ := exists_eventsFrom_eq_cons first rest
  have hframe := linesFrom_frame_append data []
  rw [List.append_nil, hlines] at hframe
  refine ⟨event, events, ?_, Nat.lt_of_le_of_lt hle hlength⟩
  rw [decode, hframe, ← heq]
  rfl

/-- `decode` of several frames is the events of each of them in turn. -/
theorem decode_flatMap_frame (ds : List (List Char)) :
    decode (ds.flatMap frame) = ds.flatMap fun d => decode (frame d) := by
  induction ds with
  | nil => rfl
  | cons d ds ih => rw [List.flatMap_cons, decode_frame_append, ih, List.flatMap_cons]

/-- A `frame` of a single character arrives as it is, or empty if it is a line end. -/
theorem decode_frame_singleton (c : Char) :
    decode (frame [c]) = [if isLineEnd c then [] else [c]] := by
  by_cases hc : isLineEnd c
  · rw [if_pos hc]
    obtain hc | hc := (Bool.or_eq_true _ _).mp hc
    · rw [of_decide_eq_true hc]
      rfl
    · rw [of_decide_eq_true hc]
      rfl
  · rw [if_neg hc]
    refine decode_frame_of_oneLine fun c' hc' => ?_
    rw [List.mem_singleton.mp hc']
    exact (Bool.not_eq_true _).mp hc

/-- Framed data arrive as they were sent exactly if each of them is `OneLine`: the round trip of the
format and its only exception. -/
theorem decode_flatMap_frame_iff (ds : List (List Char)) :
    decode (ds.flatMap frame) = ds ↔ ∀ d ∈ ds, OneLine d := by
  induction ds with
  | nil => exact ⟨fun _ => List.forall_mem_nil _, fun _ => rfl⟩
  | cons d ds ih =>
    rw [List.flatMap_cons, decode_frame_append, List.forall_mem_cons]
    refine ⟨fun h => ?_, fun ⟨hd, hds⟩ => ?_⟩
    · by_cases hd : OneLine d
      · rw [decode_frame_of_oneLine hd] at h
        exact ⟨hd, ih.mp (List.cons.inj h).2⟩
      -- the first event of the frame is too short
      · obtain ⟨event, events, heq, hlength⟩ := exists_decode_frame_of_not_oneLine hd
        rw [heq, List.cons_append] at h
        obtain ⟨rfl, -⟩ := List.cons.inj h
        exact absurd hlength (Nat.lt_irrefl _)
    · rw [decode_frame_of_oneLine hd, ih.mpr hds]
      rfl

end EventStream
