import Camber.Lib.EventStream
import Camber.Basic

/-! A writer frames an event as an `event` line, one `data` line for each line of the data, and an
empty line. -/

namespace Camber.Sse

open Str EventStream

def commentFrame : Bytes := encode ":\n\n".toList

def frameText (eventType : Option Text) (eventData : Text) : Text :=
  let frame : Text :=
    match eventType with
    | some eventType => "event: ".toList ++ eventType ++ ['\n']
    | none => []
  let frame := (eventData.splitOn '\n').foldl
    (fun frame line => frame ++ ("data: ".toList ++ line ++ ['\n'])) frame
  frame ++ ['\n']

def eventFrame (eventType : Option Text) (eventData : Text) : Bytes :=
  encode (frameText eventType eventData)

/-- The events a client reads from bytes, or `none` where they are no text. -/
def parseFrame (frame : Bytes) : Option (List Event) := (decode frame).map events

def disconnected : RuntimeError := .io "SSE client disconnected"

structure SseWriter where
  sent : List Bytes
  connected : Bool

namespace SseWriter

def sendRaw (payload : Bytes) (writer : SseWriter) : Except RuntimeError SseWriter :=
  if writer.connected then .ok { writer with sent := writer.sent ++ [payload] }
  else .error disconnected

def event (eventType eventData : Text) : SseWriter → Except RuntimeError SseWriter :=
  sendRaw (eventFrame (some eventType) eventData)

def data (eventData : Text) : SseWriter → Except RuntimeError SseWriter :=
  sendRaw (eventFrame none eventData)

def comment : SseWriter → Except RuntimeError SseWriter := sendRaw commentFrame

end SseWriter

theorem fieldOf_event (value : Text) : fieldOf ("event: ".toList ++ value) = ("event".toList, value) :=
  rfl

theorem fieldOf_data (value : Text) : fieldOf ("data: ".toList ++ value) = ("data".toList, value) :=
  rfl

theorem unbroken_event {value : Text} (h : Unbroken value) :
    Unbroken ("event: ".toList ++ value) :=
  Unbroken.append ⟨by decide, by decide⟩ h

theorem unbroken_data {value : Text} (h : Unbroken value) : Unbroken ("data: ".toList ++ value) :=
  Unbroken.append ⟨by decide, by decide⟩ h

theorem take_event (buffers : Buffers) (value : Text) :
    buffers.take ("event: ".toList ++ value) = { buffers with eventType := value } := by
  unfold Buffers.take
  rw [fieldOf_event]
  exact if_pos rfl

theorem take_data (buffers : Buffers) (value : Text) :
    buffers.take ("data: ".toList ++ value) =
      { buffers with data := buffers.data ++ value ++ ['\n'] } := by
  unfold Buffers.take
  rw [fieldOf_data]
  dsimp only
  rw [if_neg (by decide), if_pos rfl]

theorem interpret_field (buffers : Buffers) {line : Text} (h : line ≠ []) (lines : List Text) :
    interpret buffers (line :: lines) = interpret (buffers.take line) lines := by
  cases line with
  | nil => exact absurd rfl h
  | cons c line =>
    rw [interpret]
    intro heq
    cases heq

theorem events_dataLines {pieces : List Text} (h : ∀ p ∈ pieces, Unbroken p)
    (eventType data rest : Text) :
    interpret ⟨eventType, data⟩
        (linesFrom [] (pieces.flatMap (fun p => "data: ".toList ++ p ++ ['\n']) ++ rest)) =
      interpret ⟨eventType, data ++ pieces.flatMap (· ++ ['\n'])⟩ (linesFrom [] rest) := by
  induction pieces generalizing data with
  | nil => simp
  | cons p pieces ih =>
    have hp : Unbroken p := h p List.mem_cons_self
    have hline := linesFrom_line (unbroken_data hp)
      (pieces.flatMap (fun p => "data: ".toList ++ p ++ ['\n']) ++ rest)
    have hsplit : (p :: pieces).flatMap (fun p => "data: ".toList ++ p ++ ['\n']) ++ rest =
        "data: ".toList ++ p ++
          '\n' :: (pieces.flatMap (fun p => "data: ".toList ++ p ++ ['\n']) ++ rest) := by
      simp
    rw [hsplit, hline, interpret_field _ (by simp), take_data,
      ih fun q hq => h q (List.mem_cons_of_mem _ hq)]
    simp

theorem frameText_eq (eventType : Option Text) (eventData : Text) :
    frameText eventType eventData =
      (eventType.elim [] fun eventType => "event: ".toList ++ eventType ++ ['\n']) ++
        ((eventData.splitOn '\n').flatMap (fun p => "data: ".toList ++ p ++ ['\n']) ++ ['\n']) := by
  have hfold : ∀ (pieces : List Text) (frame : Text),
      pieces.foldl (fun frame line => frame ++ ("data: ".toList ++ line ++ ['\n'])) frame =
        frame ++ pieces.flatMap (fun p => "data: ".toList ++ p ++ ['\n']) := by
    intro pieces
    induction pieces with
    | nil => simp
    | cons p pieces ih =>
      intro frame
      rw [List.foldl_cons, ih, List.flatMap_cons, List.append_assoc]
  unfold frameText
  dsimp only
  rw [hfold, List.append_assoc]
  cases eventType <;> rfl

theorem events_data {eventData : Text} (hdata : '\r' ∉ eventData) (eventType rest : Text) :
    interpret ⟨eventType, []⟩ (linesFrom []
        ((eventData.splitOn '\n').flatMap (fun p => "data: ".toList ++ p ++ ['\n']) ++
          '\n' :: rest)) =
      ⟨typeOf eventType, eventData⟩ :: events rest := by
  have hpieces : ∀ p ∈ eventData.splitOn '\n', Unbroken p := by
    intro p hp
    obtain ⟨hlf, hsub⟩ := of_mem_splitOn hp
    exact ⟨fun hcr => hdata (hsub _ hcr), hlf⟩
  have hjoin : (eventData.splitOn '\n').flatMap (· ++ ['\n']) = eventData ++ ['\n'] := by
    rw [flatMap_terminated (List.splitOn_ne_nil _ _), List.intercalate_splitOn]
  rw [events_dataLines hpieces, hjoin, List.nil_append]
  have hempty := linesFrom_line (t := []) ⟨by simp, by simp⟩ rest
  rw [List.nil_append] at hempty
  rw [hempty, interpret]
  simp [Buffers.dispatch, events]

/-- A frame of clean texts reads as one event, whatever stands behind it. -/
theorem events_frameText {eventType : Option Text} {eventData : Text}
    (h : Clean (eventType.getD []) eventData) (rest : Text) :
    events (frameText eventType eventData ++ rest) =
      ⟨typeOf (eventType.getD []), eventData⟩ :: events rest := by
  have hdata := events_data h.data (eventType.getD []) rest
  rw [frameText_eq]
  cases eventType with
  | none =>
    rw [Option.elim_none, List.nil_append, List.append_assoc]
    exact hdata
  | some eventType =>
    rw [Option.getD_some] at h hdata ⊢
    have hline := linesFrom_line (unbroken_event h.eventType)
      ((eventData.splitOn '\n').flatMap (fun p => "data: ".toList ++ p ++ ['\n']) ++ '\n' :: rest)
    have hsplit : (("event: ".toList ++ eventType ++ ['\n']) ++
          ((eventData.splitOn '\n').flatMap (fun p => "data: ".toList ++ p ++ ['\n']) ++ ['\n'])) ++
          rest =
        ("event: ".toList ++ eventType) ++ '\n' ::
          ((eventData.splitOn '\n').flatMap (fun p => "data: ".toList ++ p ++ ['\n']) ++
            '\n' :: rest) := by
      simp only [List.append_assoc, List.cons_append, List.nil_append]
    rw [Option.elim_some, hsplit, events, hline, interpret_field _ (by simp), take_event]
    exact hdata

theorem events_comment (rest : Text) : events (":\n\n".toList ++ rest) = events rest := by
  have hcomment := linesFrom_line (t := [':']) ⟨by decide, by decide⟩ ('\n' :: rest)
  have hempty := linesFrom_line (t := []) ⟨by simp, by simp⟩ rest
  rw [List.nil_append] at hempty
  show interpret .empty (linesFrom [] ([':'] ++ '\n' :: ('\n' :: rest))) = _
  rw [hcomment, hempty, interpret_field _ (by simp)]
  rfl

/-- One frame is one event of the given type (`message` without one) and data exactly when the type
is not empty and has no line break and the data has no carriage return. -/
theorem frame_is_one_event_iff (eventType : Option Text) (eventData : Text) :
    parseFrame (eventFrame eventType eventData) =
        some [⟨eventType.getD message, eventData⟩] ↔
      (∀ t ∈ eventType, t ≠ [] ∧ '\r' ∉ t ∧ '\n' ∉ t) ∧ '\r' ∉ eventData := by
  unfold parseFrame eventFrame
  rw [decode_encode, Option.map_some, Option.some.injEq]
  constructor
  · intro h
    obtain ⟨hne, htype, hdata⟩ := clean_of_mem_events (h ▸ List.mem_singleton_self _)
    refine ⟨fun t ht => ?_, hdata⟩
    obtain rfl : eventType = some t := ht
    exact ⟨hne, htype⟩
  · rintro ⟨htype, hdata⟩
    have hclean : Clean (eventType.getD []) eventData := by
      refine ⟨?_, hdata⟩
      cases eventType with
      | none => exact ⟨List.not_mem_nil, List.not_mem_nil⟩
      | some t => exact (htype t rfl).2
    have h := events_frameText hclean []
    rw [List.append_nil] at h
    rw [h]
    cases eventType with
    | none => rfl
    | some t => rw [Option.getD_some, typeOf, if_neg (htype t rfl).1]; rfl

/-- A line break in the type ends the event and starts another one. -/
theorem type_breaks_frame :
    parseFrame (eventFrame (some "a\ndata: x\n\nevent: b".toList) "y".toList) =
      some [⟨"a".toList, "x".toList⟩, ⟨"b".toList, "y".toList⟩] := by
  decide +kernel

/-- A carriage return in the data is a line end to the client, and an empty type is `message`. -/
example : parseFrame (eventFrame (some []) "a\rdata: b".toList) = some [⟨message, "a\nb".toList⟩] := by
  decide +kernel

inductive Write where
  | event (eventType eventData : Text)
  | data (eventData : Text)
  | comment

namespace Write

def send : Write → SseWriter → Except RuntimeError SseWriter
  | .event eventType eventData => SseWriter.event eventType eventData
  | .data eventData => SseWriter.data eventData
  | .comment => SseWriter.comment

def events : Write → List Event
  | .event eventType eventData => [⟨typeOf eventType, eventData⟩]
  | .data eventData => [⟨message, eventData⟩]
  | .comment => []

/-- The type is one line, and the data has no carriage return. -/
def Clean : Write → Prop
  | .event eventType eventData => EventStream.Clean eventType eventData
  | .data eventData => '\r' ∉ eventData
  | .comment => True

end Write

def Carries (writer : SseWriter) (dispatched : List Event) : Prop :=
  ∃ stream, writer.sent.flatten = encode stream ∧
    ∀ rest, events (stream ++ rest) = dispatched ++ events rest

variable {writer : SseWriter} {dispatched : List Event}

theorem Carries.sendRaw {next : SseWriter} {more : List Event} {text : Text}
    (h : Carries writer dispatched) (hsend : writer.sendRaw (encode text) = .ok next)
    (htext : ∀ rest, events (text ++ rest) = more ++ events rest) :
    Carries next (dispatched ++ more) := by
  obtain ⟨stream, hsent, hread⟩ := h
  unfold SseWriter.sendRaw at hsend
  split at hsend
  next =>
    obtain rfl := Except.ok.inj hsend
    refine ⟨stream ++ text, ?_, fun rest => ?_⟩
    · rw [List.flatten_append, hsent, encode_append]
      simp
    · rw [List.append_assoc, hread, htext, List.append_assoc]
  next => cases hsend

theorem Carries.send {next : SseWriter} {write : Write} (h : Carries writer dispatched)
    (hclean : write.Clean) (hsend : write.send writer = .ok next) :
    Carries next (dispatched ++ write.events) := by
  cases write with
  | event eventType eventData =>
    have hsome : EventStream.Clean ((some eventType).getD []) eventData := hclean
    exact h.sendRaw hsend fun rest => events_frameText hsome rest
  | data eventData =>
    have hnone : EventStream.Clean ((none : Option Text).getD []) eventData :=
      ⟨⟨List.not_mem_nil, List.not_mem_nil⟩, hclean⟩
    exact h.sendRaw hsend fun rest => events_frameText hnone rest
  | comment => exact h.sendRaw hsend fun rest => events_comment rest

/-- What a writer accepts of a handler's writes; `none` is the client that disconnects. -/
def sendAll : List (Option Write) → SseWriter → List Write × SseWriter
  | [], writer => ([], writer)
  | none :: rest, writer => sendAll rest { writer with connected := false }
  | some write :: rest, writer =>
    match write.send writer with
    | .ok next => (write :: (sendAll rest next).1, (sendAll rest next).2)
    | .error _ => sendAll rest writer

theorem Carries.sendAll {writes : List (Option Write)} (h : Carries writer dispatched)
    (hclean : ∀ write, some write ∈ writes → write.Clean) :
    Carries (sendAll writes writer).2
      (dispatched ++ (sendAll writes writer).1.flatMap Write.events) := by
  induction writes generalizing writer dispatched with
  | nil => simpa [Sse.sendAll] using h
  | cons write writes ih =>
    have hrest : ∀ write, some write ∈ writes → write.Clean :=
      fun w hw => hclean w (List.mem_cons_of_mem _ hw)
    cases write with
    | none => exact ih h hrest
    | some write =>
      rw [Sse.sendAll]
      cases hsend : write.send writer with
      | error error => exact ih h hrest
      | ok next =>
        have hnext := ih (h.send (hclean write List.mem_cons_self) hsend) hrest
        simpa [List.append_assoc] using hnext

/-- Whatever clean writes a handler makes and whenever its client disconnects, the bytes sent read
back as the events of the accepted writes, in order. -/
theorem stream_reads_back (connected : Bool) {writes : List (Option Write)}
    (hclean : ∀ write, some write ∈ writes → write.Clean) :
    parseFrame (sendAll writes ⟨[], connected⟩).2.sent.flatten =
      some ((sendAll writes ⟨[], connected⟩).1.flatMap Write.events) := by
  have hnew : Carries ⟨[], connected⟩ [] := ⟨[], rfl, fun _ => rfl⟩
  obtain ⟨stream, hsent, hread⟩ := hnew.sendAll hclean
  have hevents := hread []
  rw [List.append_nil, List.nil_append] at hevents
  rw [parseFrame, hsent, decode_encode, Option.map_some, hevents]
  simp [events, linesFrom, interpret]

theorem stream_reads_back_two_writes :
    parseFrame (sendAll [some (.event "tick".toList "1".toList), some (.event [] "a\nb".toList),
        some .comment, some (.data "c".toList), none, some .comment] ⟨[], true⟩).2.sent.flatten =
      some [⟨"tick".toList, "1".toList⟩, ⟨message, "a\nb".toList⟩, ⟨message, "c".toList⟩] := by
  refine (stream_reads_back true fun write hwrite => ?_).trans (by decide +kernel)
  simp only [List.mem_cons, Option.some.injEq, List.not_mem_nil, or_false, reduceCtorEq,
    false_or] at hwrite
  rcases hwrite with rfl | rfl | rfl | rfl | rfl
  · exact ⟨⟨by decide, by decide⟩, by decide⟩
  · exact ⟨⟨by decide, by decide⟩, by decide⟩
  · trivial
  · show '\r' ∉ "c".toList
    decide
  · trivial

end Camber.Sse
