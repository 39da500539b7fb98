import Camber.Multipart.Wire

/-! The whole body is in memory; the parser cuts it at delimiters before it reads a part. -/

namespace Camber.Multipart
open Str SliceSearch

structure Part where
  name : Text
  filename : Option Text
  contentType : Option Text
  data : Bytes
deriving DecidableEq

def parsePart (raw fullBody : Bytes) (offset : ℕ) : Except RuntimeError Part :=
  match findBytes raw headerTerminator 0 with
  | none => .error (malformed "invalid multipart part framing")
  | some headerEnd => do
    let headers ← parseHeaderBlock (raw.take headerEnd)
    let dataStart := headerEnd + headerTerminator.length
    let data := (fullBody.drop (offset + dataStart)).take (raw.length - dataStart)
    match headers.name with
    | none => .error (malformed invalidContentDisposition)
    | some name => .ok ⟨name, headers.filename, headers.contentType, data⟩

def parseClosingDelimiter (body : Bytes) (end_ : ℕ) : Except RuntimeError (Option ℕ) :=
  if end_ ≤ body.length then do
    match ← epilogueCloses (body.drop end_) with
    | true => .ok none
    | false => .error (malformed invalidDelimiterFraming)
  else .error (malformed invalidDelimiterFraming)

def parseDelimiterSuffix (body : Bytes) (pos : ℕ) : Except RuntimeError (Option ℕ) := do
  let end_ := pos + delimiterSuffixBytes
  match ← delimiterClosesAt body pos with
  | true => parseClosingDelimiter body end_
  | false => .ok (some end_)

/-- The part loop of `parse`, for as many parts as `fuel` allows. -/
def parseParts (body boundary : Bytes) : ℕ → ℕ → Except RuntimeError (List Part)
  | 0, _ => .error (malformed invalidDelimiterFraming)
  | fuel + 1, pos =>
    match findDelimiter body boundary pos with
    | none => .error (malformed invalidDelimiterFraming)
    | some nextDelim => do
      let part ← parsePart ((body.take nextDelim).drop pos) body pos
      match ← parseDelimiterSuffix body
          (nextDelim + delimiterPrefix.length + boundary.length) with
      | some next => do
        let parts ← parseParts body boundary fuel next
        .ok (part :: parts)
      | none => .ok [part]

def parse (contentType : Text) (body : Bytes) : Except RuntimeError (List Part) := do
  let boundary ← extractBoundaryWithin contentType protocolMaxBoundaryBytes
  let boundaryBytes := encode boundary
  let openingLength := bodyPrefix.length + boundaryBytes.length
  if !opensBody body boundaryBytes then .error (malformed invalidDelimiterFraming)
  else
    match ← parseDelimiterSuffix body openingLength with
    | none => .ok []
    | some pos => parseParts body boundaryBytes (body.length + 1) pos

variable {boundary : Bytes}

def Section.part (s : Section boundary) : Except RuntimeError Part := do
  let headers ← parseHeaderBlock s.headers
  match headers.name with
  | none => .error (malformed invalidContentDisposition)
  | some name => .ok ⟨name, headers.filename, headers.contentType, s.data⟩

def Section.DelimiterInHeaders (s : Section boundary) : Prop :=
  ∃ j, j < s.headers.length + 4 ∧ DelimiterAt boundary s.wire j

variable {body : Bytes} {pos : ℕ} {parts : List Part}

theorem parseDelimiterSuffix_eq_ok {closes : Bool} (hc : delimiterClosesAt body pos = .ok closes)
    {r : Option ℕ} :
    parseDelimiterSuffix body pos = .ok r ↔
      if closes then r = none ∧ (body.drop (pos + 2) = [] ∨ body.drop (pos + 2) = [13, 10])
      else r = some (pos + 2) := by
  have hle : pos + 2 ≤ body.length := by
    have hocc := delimiterClosesAt_eq_ok.mp hc
    have := hocc.end_le (by cases closes <;> simp)
    cases closes <;> exact this
  have h2 : pos + delimiterSuffixBytes = pos + 2 := rfl
  simp only [parseDelimiterSuffix, hc, bind, Except.bind, h2]
  cases closes with
  | false => simp [eq_comm]
  | true =>
    simp only [parseClosingDelimiter, if_pos hle, if_true, bind, Except.bind]
    cases he : epilogueCloses (body.drop (pos + 2)) with
    | error e =>
      have hnot : ¬ (body.drop (pos + 2) = [] ∨ body.drop (pos + 2) = [13, 10]) := by
        rintro (h | h) <;> rw [h] at he <;> exact absurd he (by simp [epilogueCloses])
      exact ⟨fun h => by simp at h, fun h => absurd h.2 hnot⟩
    | ok closed =>
      have hok : (Except.ok none : Except RuntimeError (Option ℕ)) = .ok r ↔ r = none :=
        ⟨fun h => (Except.ok.inj h).symm, fun h => by rw [h]⟩
      rcases epilogueCloses_eq_ok.mp he with ⟨h, rfl⟩ | ⟨h, rfl⟩ | ⟨h, rfl⟩
      · exact hok.trans ⟨fun hr => ⟨hr, Or.inl h⟩, And.left⟩
      · exact hok.trans ⟨fun hr => ⟨hr, Or.inr h⟩, And.left⟩
      · simp [h]

theorem Section.first_of_clean (s : Section boundary) (rest : Bytes)
    (hclean : ¬ s.DelimiterInHeaders) :
    First (DelimiterAt boundary (s.wire ++ rest)) 0
      (some (s.headers.length + 4 + s.data.length)) := by
  have hfirst := s.first_delimiter rest
  rw [← s.drop_headers rest] at hfirst
  refine (hfirst.shift fun j => delimiterAt_drop).skip (Nat.zero_le _) fun j _ hj hd => hclean ?_
  refine ⟨j, hj, (delimiterAt_append_left ?_).mp hd⟩
  have hwire : s.wire.length = s.headers.length + 4 + (s.data.length + (boundary.length + 6)) := by
    simp only [wire, List.length_append, delimiterLine_length]
    rfl
  omega

theorem findDelimiter_drop (body boundary : Bytes) (pos : ℕ) :
    findDelimiter body boundary pos =
      (findDelimiter (body.drop pos) boundary 0).map (pos + ·) :=
  (findDelimiter_first body boundary pos).unique
    ((findDelimiter_first (body.drop pos) boundary 0).shift fun _ => delimiterAt_drop)

theorem parsePart_section (s : Section boundary) {rest : Bytes}
    (hw : body.drop pos = s.wire ++ rest) :
    parsePart (s.headers ++ headerTerminator ++ s.data) body pos = s.part := by
  have hne : headerTerminator ≠ [] := by simp [headerTerminator]
  have h4 : headerTerminator.length = 4 := rfl
  have hfind : findBytes (s.headers ++ headerTerminator ++ s.data) headerTerminator 0 =
      some s.headers.length :=
    (findBytes_first _ _ hne 0).unique (first_occurs_append hne s.terminator_first _)
  have hlen : (s.headers ++ headerTerminator ++ s.data).length - (s.headers.length + 4) =
      s.data.length := by
    simp only [List.length_append, h4]
    omega
  have hdata : (body.drop (pos + (s.headers.length + 4))).take s.data.length = s.data := by
    rw [← List.drop_drop, hw, s.drop_headers, List.take_left]
  have hhead : (s.headers ++ headerTerminator ++ s.data).take s.headers.length = s.headers := by
    rw [List.append_assoc, List.take_left]
  simp only [parsePart, hfind, h4, hlen, hdata, hhead]
  rfl

theorem Section.wire_length (s : Section boundary) :
    s.wire.length = s.headers.length + 4 + s.data.length + (boundary.length + 6) := by
  simp only [wire, List.length_append, delimiterLine_length]
  have h4 : headerTerminator.length = 4 := rfl
  omega

theorem parseParts_section (s : Section boundary) {rest : Bytes}
    (hw : body.drop pos = s.wire ++ rest) (hclean : ¬ s.DelimiterInHeaders) (fuel : ℕ) :
    parseParts body boundary (fuel + 1) pos = .ok parts ↔
      ∃ part, s.part = .ok part ∧
        if s.closes then parts = [part] ∧ (rest = [] ∨ rest = [13, 10])
        else ∃ later, parseParts body boundary fuel (pos + s.wire.length) = .ok later ∧
          parts = part :: later := by
  have h4 : headerTerminator.length = 4 := rfl
  have hp4 : delimiterPrefix.length = 4 := rfl
  have hlen := s.wire_length
  set cut := s.headers.length + 4 + s.data.length with hcut
  have hfind : findDelimiter body boundary pos = some (pos + cut) := by
    rw [findDelimiter_drop, hw, findDelimiter_eq (s.first_of_clean rest hclean)]
    rfl
  have hraw : (body.take (pos + cut)).drop pos = s.headers ++ headerTerminator ++ s.data := by
    rw [List.drop_take, Nat.add_sub_cancel_left, hw, s.wire_append, ← List.append_assoc]
    exact List.take_left' (by simp only [List.length_append, h4]; omega)
  have hline : body.drop (pos + cut) = delimiterLine boundary s.closes ++ rest := by
    rw [← List.drop_drop, hw, s.wire_append, ← List.append_assoc]
    exact List.drop_left' (by simp only [List.length_append, h4]; omega)
  have hocc : Occurs (delimiterLine boundary s.closes) body (pos + cut) := by
    rw [Occurs, hline]
    exact List.prefix_append _ _
  have hcloses := delimiterClosesAt_delimiter ⟨_, hocc⟩
  rw [closes_of_occurs hocc] at hcloses
  have hrest : body.drop (pos + cut + 4 + boundary.length + 2) = rest := by
    rw [show pos + cut + 4 + boundary.length + 2 = pos + cut + (boundary.length + 6) by omega,
      ← List.drop_drop, hline]
    exact List.drop_left' (delimiterLine_length boundary s.closes)
  have hnext : pos + cut + 4 + boundary.length + 2 = pos + s.wire.length := by omega
  have hsuffix := fun r => parseDelimiterSuffix_eq_ok hcloses (r := r)
  rw [hrest, hnext] at hsuffix
  rw [parseParts, hfind]
  simp only [hraw, parsePart_section s hw, hp4, Except.bind_ok_iff]
  refine exists_congr fun part => and_congr_right fun _ => ?_
  cases hc : s.closes with
  | true =>
    simp only [hc, if_true] at hsuffix ⊢
    constructor
    · rintro ⟨r, hr, h⟩
      obtain ⟨rfl, hend⟩ := (hsuffix r).mp hr
      exact ⟨(Except.ok.inj h).symm, hend⟩
    · rintro ⟨rfl, hend⟩
      exact ⟨none, (hsuffix none).mpr ⟨rfl, hend⟩, rfl⟩
  | false =>
    simp only [hc, Bool.false_eq_true, if_false] at hsuffix ⊢
    constructor
    · rintro ⟨r, hr, h⟩
      obtain rfl := (hsuffix r).mp hr
      obtain ⟨later, hlater, h⟩ := Except.bind_ok_iff.mp h
      exact ⟨later, hlater, (Except.ok.inj h).symm⟩
    · rintro ⟨later, hlater, rfl⟩
      exact ⟨some _, (hsuffix _).mpr rfl, Except.bind_ok_iff.mpr ⟨later, hlater, rfl⟩⟩

theorem section_of_parsePart {nextDelim : ℕ} {part : Part}
    (hfirst : First (DelimiterAt boundary body) pos (some nextDelim))
    (hpart : parsePart ((body.take nextDelim).drop pos) body pos = .ok part) :
    ∃ (s : Section boundary) (rest : Bytes),
      body.drop pos = s.wire ++ rest ∧ ¬ s.DelimiterInHeaders := by
  have hne : headerTerminator ≠ [] := by simp [headerTerminator]
  have h4 : headerTerminator.length = 4 := rfl
  have hle := hfirst.start_le
  have hend := hfirst.holds.end_le
  have hraw : (body.take nextDelim).drop pos = (body.drop pos).take (nextDelim - pos) :=
    List.drop_take
  have hterm := findBytes_first ((body.drop pos).take (nextDelim - pos)) headerTerminator hne 0
  rw [hraw, parsePart] at hpart
  cases hf : findBytes ((body.drop pos).take (nextDelim - pos)) headerTerminator 0 with
  | none => simp [hf] at hpart
  | some end_ =>
    rw [hf] at hterm
    have hlen := Occurs.end_le hterm.holds hne
    rw [List.length_take, List.length_drop, h4] at hlen
    have hterm' := first_occurs_append hne hterm ((body.drop pos).drop (nextDelim - pos))
    rw [List.take_append_drop] at hterm'
    -- nothing before the cut is a delimiter, so the first one after the headers is the cut
    have hdelim : First (DelimiterAt boundary ((body.drop pos).drop (end_ + 4))) 0
        (some (nextDelim - (pos + (end_ + 4)))) := by
      refine first_some (Nat.zero_le _) ?_ fun j _ hj hd => ?_
      · rw [delimiterAt_drop, delimiterAt_drop]
        convert hfirst.holds using 1
        omega
      · rw [delimiterAt_drop, delimiterAt_drop] at hd
        exact hfirst.before (by omega) (by omega) hd
    have hwire := Section.ofCut_wire (body.drop pos) end_ _ hterm' hdelim
    refine ⟨Section.ofCut _ end_ _ hterm' hdelim, _, hwire.symm, ?_⟩
    rintro ⟨j, hj, hd⟩
    have hin := hd.append ((body.drop pos).drop (end_ + 4) |>.drop
      (nextDelim - (pos + (end_ + 4)) + (boundary.length + 6)))
    rw [hwire, delimiterAt_drop] at hin
    have hend' : (Section.ofCut (body.drop pos) end_ _ hterm' hdelim).headers.length = end_ := by
      simp only [Section.ofCut, List.length_take, List.length_drop]
      omega
    exact hfirst.before (by omega) (by omega) hin

theorem parseParts_eq_ok (fuel : ℕ) (hfuel : body.length < pos + fuel) :
    parseParts body boundary fuel pos = .ok parts ↔
      ∃ sections, WireTail boundary false sections (body.drop pos) ∧
        (∀ s ∈ sections, ¬ s.DelimiterInHeaders) ∧
        List.Forall₂ (fun s part => Section.part s = .ok part) sections parts := by
  induction fuel generalizing pos parts with
  | zero =>
    refine ⟨fun h => by simp [parseParts] at h, ?_⟩
    rintro ⟨sections, htail, -⟩
    rw [List.drop_eq_nil_of_le (by omega)] at htail
    generalize hnil : ([] : Bytes) = w at htail
    cases htail with
    | @sections s later rest h =>
      have := congrArg List.length hnil
      rw [List.length_append, s.wire_length, List.length_nil] at this
      omega
  | succ fuel ih =>
    constructor
    · intro h
      have hfirst := findDelimiter_first body boundary pos
      have h' := h
      rw [parseParts] at h'
      cases hf : findDelimiter body boundary pos with
      | none => simp [hf] at h'
      | some nextDelim =>
        rw [hf] at hfirst h'
        obtain ⟨part, hpart, -⟩ := Except.bind_ok_iff.mp h'
        obtain ⟨s, rest, hw, hclean⟩ := section_of_parsePart hfirst hpart
        obtain ⟨part, hpart, hrest⟩ := (parseParts_section s hw hclean fuel).mp h
        have hlen := s.wire_length
        rw [hw]
        cases hc : s.closes with
        | true =>
          simp only [hc, if_true] at hrest
          obtain ⟨rfl, hend⟩ := hrest
          exact ⟨[s], .sections (hc ▸ .ending hend), by simpa using hclean, by simpa using hpart⟩
        | false =>
          simp only [hc, Bool.false_eq_true, if_false] at hrest
          obtain ⟨later, hlater, rfl⟩ := hrest
          obtain ⟨sections, htail, hall, hparts⟩ := (ih (by omega)).mp hlater
          rw [← List.drop_drop, hw, List.drop_left] at htail
          exact ⟨s :: sections, .sections (hc ▸ htail), by simpa using ⟨hclean, hall⟩,
            .cons hpart hparts⟩
    · rintro ⟨sections, htail, hall, hparts⟩
      generalize hw : body.drop pos = w at htail
      cases htail with
      | @sections s later rest h =>
        cases hparts with
        | @cons _ part _ laterParts hpart hparts =>
          have hlen := s.wire_length
          refine (parseParts_section s hw (hall s (by simp)) fuel).mpr ⟨part, hpart, ?_⟩
          cases hc : s.closes with
          | true =>
            rw [hc] at h
            cases h with
            | ending hend =>
              cases hparts
              exact ⟨rfl, hend⟩
          | false =>
            rw [hc] at h
            refine ⟨laterParts, (ih (by omega)).mpr ⟨later, ?_, fun t ht => hall t (by simp [ht]),
              hparts⟩, rfl⟩
            rwa [← List.drop_drop, hw, List.drop_left]

theorem parse_eq_ok {contentType boundary : Text}
    (hct : extractBoundaryWithin contentType protocolMaxBoundaryBytes = .ok boundary) :
    parse contentType body = .ok parts ↔
      ∃ sections, Wire (encode boundary) sections body ∧
        (∀ s ∈ sections, ¬ s.DelimiterInHeaders) ∧
        List.Forall₂ (fun s part => Section.part s = .ok part) sections parts := by
  have h2 : bodyPrefix.length + (encode boundary).length = 2 + (encode boundary).length := rfl
  simp only [parse, Except.bind_ok_iff, hct, Except.ok.injEq, exists_eq_left', h2]
  by_cases hopen : ∃ closes, openingLine (encode boundary) closes <+: body
  · obtain ⟨closes, rest, rfl⟩ := hopen
    obtain ⟨hopens, hcloses⟩ := opens_iff_openingLine.mpr
      (List.prefix_append (openingLine (encode boundary) closes) rest)
    have hrest : (openingLine (encode boundary) closes ++ rest).drop
        (2 + (encode boundary).length + 2) = rest :=
      List.drop_left' (by rw [openingLine_length]; omega)
    have hsuffix := fun r => parseDelimiterSuffix_eq_ok hcloses (r := r)
    rw [hrest] at hsuffix
    have hwire : ∀ sections, Wire (encode boundary) sections
        (openingLine (encode boundary) closes ++ rest) ↔
          WireTail (encode boundary) closes sections rest := by
      refine fun sections => ⟨?_, fun h => ⟨closes, rest, rfl, h⟩⟩
      rintro ⟨closes', rest', he, htail⟩
      obtain ⟨rfl, rfl⟩ := openingLine_inj he
      exact htail
    simp only [hopens, Bool.not_true, Bool.false_eq_true, if_false, Except.bind_ok_iff, hwire]
    cases closes with
    | true =>
      simp only [if_true] at hsuffix
      constructor
      · rintro ⟨r, hr, h⟩
        obtain ⟨rfl, hend⟩ := (hsuffix r).mp hr
        obtain rfl := Except.ok.inj h
        exact ⟨[], .ending hend, by simp, .nil⟩
      · rintro ⟨sections, htail, -, hparts⟩
        cases htail with
        | ending hend =>
          cases hparts
          exact ⟨none, (hsuffix none).mpr ⟨rfl, hend⟩, rfl⟩
    | false =>
      simp only [Bool.false_eq_true, if_false] at hsuffix
      have hloop : parseParts (openingLine (encode boundary) false ++ rest) (encode boundary)
          ((openingLine (encode boundary) false ++ rest).length + 1)
          (2 + (encode boundary).length + 2) = .ok parts ↔ _ := parseParts_eq_ok _ (by omega)
      rw [hrest] at hloop
      rw [← hloop]
      constructor
      · rintro ⟨r, hr, h⟩
        obtain rfl := (hsuffix r).mp hr
        exact h
      · exact fun h => ⟨some _, (hsuffix _).mpr rfl, h⟩
  · -- a body that does not open is refused whatever follows
    refine ⟨fun h => absurd ?_ hopen, fun ⟨sections, hw, _⟩ => ?_⟩
    · split_ifs at h with hno
      obtain ⟨r, hr, -⟩ := Except.bind_ok_iff.mp h
      obtain ⟨closes, hc, -⟩ := Except.bind_ok_iff.mp hr
      exact ⟨closes, opens_iff_openingLine.mp ⟨by simpa using hno, hc⟩⟩
    · obtain ⟨closes, rest, rfl, -⟩ := hw
      exact absurd ⟨closes, List.prefix_append _ _⟩ hopen

end Camber.Multipart
