import Camber.Lib.Text
import Camber.Lib.Utf8

/-! The line grammar of `text/event-stream`: a stream is read line by line into a type and a data
buffer, and an empty line dispatches them as one event. -/

namespace EventStream

open Str

/-- The complete lines of a stream, where `line` has been read of the first one. -/
def linesFrom (line : Text) : Text → List Text
  | [] => []
  | '\r' :: '\n' :: rest => line :: linesFrom [] rest
  | c :: rest =>
    if c = '\r' ∨ c = '\n' then line :: linesFrom [] rest else linesFrom (line ++ [c]) rest

/-- A dispatched event. -/
structure Event where
  eventType : Text
  data : Text
deriving DecidableEq

/-- What the lines since the last empty one have said. -/
structure Buffers where
  eventType : Text
  data : Text

/-- The type of an event that names none. -/
def message : Text := "message".toList

/-- The type an event is dispatched under: an empty type buffer stands for `message`. -/
def typeOf (eventType : Text) : Text := if eventType = [] then message else eventType

namespace Buffers

def empty : Buffers := ⟨[], []⟩

/-- What an empty line does: buffers without data dispatch nothing. -/
def dispatch (buffers : Buffers) : List Event :=
  if buffers.data = [] then [] else [⟨typeOf buffers.eventType, buffers.data.dropLast⟩]

end Buffers

/-- The name and the value of a field line; one space after the colon is no part of the value. -/
def fieldOf (line : Text) : Text × Text :=
  match splitOnce ':' line with
  | none => (line, [])
  | some (name, ' ' :: value) => (name, value)
  | some (name, value) => (name, value)

def Buffers.take (buffers : Buffers) (line : Text) : Buffers :=
  let (name, value) := fieldOf line
  if name = "event".toList then { buffers with eventType := value }
  else if name = "data".toList then { buffers with data := buffers.data ++ value ++ ['\n'] }
  else buffers

def interpret (buffers : Buffers) : List Text → List Event
  | [] => []
  | [] :: rest => buffers.dispatch ++ interpret .empty rest
  | line :: rest => interpret (buffers.take line) rest

/-- The events a whole stream dispatches. -/
def events (stream : Text) : List Event := interpret .empty (linesFrom [] stream)

/-- Whether a text stays within one line. -/
def Unbroken (t : Text) : Prop := '\r' ∉ t ∧ '\n' ∉ t

theorem Unbroken.append {a b : Text} (ha : Unbroken a) (hb : Unbroken b) : Unbroken (a ++ b) := by
  unfold Unbroken
  simp [ha.1, ha.2, hb.1, hb.2]

theorem linesFrom_append {t : Text} (h : Unbroken t) (line rest : Text) :
    linesFrom line (t ++ rest) = linesFrom (line ++ t) rest := by
  induction t generalizing line with
  | nil => simp
  | cons c t ih =>
    obtain ⟨hcr, hlf⟩ := h
    have hc : ¬ (c = '\r' ∨ c = '\n') := by
      rintro (rfl | rfl)
      · exact hcr List.mem_cons_self
      · exact hlf List.mem_cons_self
    have ht : Unbroken t :=
      ⟨fun hmem => hcr (List.mem_cons_of_mem _ hmem), fun hmem => hlf (List.mem_cons_of_mem _ hmem)⟩
    rw [List.cons_append, linesFrom, if_neg hc, ih ht]
    · simp
    · intro rest' heq
      exact absurd (.inl heq) hc

theorem linesFrom_line {t : Text} (h : Unbroken t) (rest : Text) :
    linesFrom [] (t ++ '\n' :: rest) = t :: linesFrom [] rest := by
  rw [linesFrom_append h, List.nil_append, linesFrom, if_pos (.inr rfl)]
  intro rest' heq
  cases heq

variable {line : Text}

theorem unbroken_of_mem_linesFrom {stream l : Text} (hline : Unbroken line)
    (h : l ∈ linesFrom line stream) : Unbroken l := by
  fun_induction linesFrom line stream with
  | case1 => cases h
  | case2 line rest ih =>
    rcases List.mem_cons.mp h with rfl | h
    · exact hline
    · exact ih ⟨by simp, by simp⟩ h
  | case3 line c rest _ _ ih =>
    rcases List.mem_cons.mp h with rfl | h
    · exact hline
    · exact ih ⟨by simp, by simp⟩ h
  | case4 line c rest _ hc ih =>
    refine ih (hline.append ?_) h
    push Not at hc
    exact ⟨by simp [Ne.symm hc.1], by simp [Ne.symm hc.2]⟩

theorem unbroken_fieldOf (h : Unbroken line) : Unbroken (fieldOf line).2 := by
  have hcut : ∀ {name value : Text}, splitOnce ':' line = some (name, value) →
      Unbroken value := by
    intro name value hsplit
    rw [splitOnce_eq_some hsplit] at h
    exact ⟨fun hmem => h.1 (by simp [hmem]), fun hmem => h.2 (by simp [hmem])⟩
  unfold fieldOf
  split
  next => exact ⟨by simp, by simp⟩
  next name value hsplit =>
    have hvalue := hcut hsplit
    exact ⟨fun hmem => hvalue.1 (List.mem_cons_of_mem _ hmem),
      fun hmem => hvalue.2 (List.mem_cons_of_mem _ hmem)⟩
  next name value _ hsplit => exact hcut hsplit

/-- Texts that lines can carry: a type in one line, data without a carriage return. -/
structure Clean (eventType data : Text) : Prop where
  eventType : Unbroken eventType
  data : '\r' ∉ data

theorem Buffers.clean_empty : Clean empty.eventType empty.data :=
  ⟨⟨List.not_mem_nil, List.not_mem_nil⟩, List.not_mem_nil⟩

theorem Buffers.clean_take {buffers : Buffers} (h : Clean buffers.eventType buffers.data)
    (hline : Unbroken line) : Clean (buffers.take line).eventType (buffers.take line).data := by
  have hvalue := unbroken_fieldOf hline
  unfold Buffers.take
  dsimp only
  split
  next => exact ⟨hvalue, h.data⟩
  next =>
    split
    next => exact ⟨h.eventType, by simp [h.data, hvalue.1]⟩
    next => exact h

theorem typeOf_ne_nil (eventType : Text) : typeOf eventType ≠ [] := by
  unfold typeOf
  split
  next => decide
  next h => exact h

theorem unbroken_typeOf {eventType : Text} (h : Unbroken eventType) :
    Unbroken (typeOf eventType) := by
  unfold typeOf
  split
  next => exact ⟨by decide, by decide⟩
  next => exact h

theorem clean_of_mem_interpret {buffers : Buffers} {lines : List Text} {event : Event}
    (hlines : ∀ l ∈ lines, Unbroken l) (h : Clean buffers.eventType buffers.data)
    (hmem : event ∈ interpret buffers lines) :
    event.eventType ≠ [] ∧ Clean event.eventType event.data := by
  induction lines generalizing buffers with
  | nil => cases hmem
  | cons line rest ih =>
    have hrest : ∀ l ∈ rest, Unbroken l := fun l hl => hlines l (List.mem_cons_of_mem _ hl)
    cases line with
    | nil =>
      rw [interpret] at hmem
      rcases List.mem_append.mp hmem with hmem | hmem
      · unfold Buffers.dispatch at hmem
        split at hmem
        next => cases hmem
        next =>
          obtain rfl := List.mem_singleton.mp hmem
          exact ⟨typeOf_ne_nil _, unbroken_typeOf h.eventType,
            fun hcr => h.data (List.mem_of_mem_dropLast hcr)⟩
      · exact ih hrest Buffers.clean_empty hmem
    | cons c line =>
      rw [interpret] at hmem
      · exact ih hrest (Buffers.clean_take h (hlines _ List.mem_cons_self)) hmem
      · intro heq
        cases heq

/-- Whatever the stream, an event has a type, and both its texts come from within lines. -/
theorem clean_of_mem_events {stream : Text} {event : Event} (h : event ∈ events stream) :
    event.eventType ≠ [] ∧ Clean event.eventType event.data :=
  clean_of_mem_interpret (fun _ hl => unbroken_of_mem_linesFrom ⟨by simp, by simp⟩ hl)
    Buffers.clean_empty h

end EventStream
