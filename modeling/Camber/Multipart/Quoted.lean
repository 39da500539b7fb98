import Camber.Lib.Text
import Camber.Lib.Utf8
import Camber.Multipart.Grammar

/-! A grammar for the parameters that splitting, validating and decoding accept together. -/

namespace Camber.Multipart
open Str HeaderParameters

def push (read : List HeaderParameter) (parameter : HeaderParameter) :
    Except RuntimeError (List HeaderParameter) := .ok (read ++ [parameter])

def HeaderParameters.collect (ps : HeaderParameters) : Except RuntimeError (List HeaderParameter) :=
  ps.fold push []

inductive QuotedBody : Text → Prop
  | nil : QuotedBody []
  | text {c : Char} {rest : Text} (hc : isQuotedText c = true) (h : QuotedBody rest) :
      QuotedBody (c :: rest)
  | pair {c : Char} {rest : Text} (hc : isQuotedPairValue c = true) (h : QuotedBody rest) :
      QuotedBody ('\\' :: c :: rest)

inductive SpellsValue : ParameterValue → Text → Prop
  | unquoted {value : Text} (h : isToken (encode value) = true) :
      SpellsValue (.unquoted value) value
  | quoted {inner : Text} (h : QuotedBody inner) :
      SpellsValue (.quoted inner) ('"' :: (inner ++ ['"']))

inductive SpellsParameter : HeaderParameter → Text → Prop
  | mk {name value a b c d : Text} {parsed : ParameterValue} (hname : isToken (encode name) = true)
      (hvalue : SpellsValue parsed value) (ha : Blank a) (hb : Blank b) (hc : Blank c)
      (hd : Blank d) :
      SpellsParameter ⟨name, parsed⟩ (a ++ name ++ b ++ '=' :: (c ++ value ++ d))

inductive Spells : List HeaderParameter → Text → Prop
  | last {parameter : HeaderParameter} {segment : Text} (h : SpellsParameter parameter segment) :
      Spells [parameter] segment
  | more {parameter : HeaderParameter} {parameters : List HeaderParameter} {segment rest : Text}
      (h : SpellsParameter parameter segment) (hrest : Spells parameters rest) :
      Spells (parameter :: parameters) (segment ++ ';' :: rest)

theorem token_byte {value : Bytes} (h : isToken value = true) {b : UInt8} (hb : b ∈ value) :
    32 < b.toNat ∧ b.toNat < 127 ∧ b.toNat ≠ 34 ∧ b.toNat ≠ 59 ∧ b.toNat ≠ 61 := by
  have hall := (Bool.and_eq_true_iff.mp h).2
  have hbyte := List.all_eq_true.mp hall b hb
  rcases Bool.or_eq_true_iff.mp hbyte with halnum | hmark
  · simp only [Ascii.isAlphanumeric, Ascii.isAlpha, Ascii.isDigit, UInt8.le_iff_toNat_le,
      Bool.or_eq_true, Bool.and_eq_true, decide_eq_true_eq, UInt8.reduceToNat] at halnum
    omega
  · have hmarks : ∀ mark ∈ encode "!#$%&'*+-.^_`|~".toList, 32 < mark.toNat ∧ mark.toNat < 127 ∧
        mark.toNat ≠ 34 ∧ mark.toNat ≠ 59 ∧ mark.toNat ≠ 61 := by decide +kernel
    exact hmarks b (List.contains_iff_mem.mp hmark)

variable {value segment body rest : Text} {parsed : ParameterValue}
  {parameters : List HeaderParameter}

theorem token_char (h : isToken (encode value) = true) {c : Char} (hc : c ∈ value) :
    isWhitespace c = false ∧ c ≠ '"' ∧ c ≠ ';' ∧ c ≠ '=' := by
  obtain ⟨b, hb, hkind⟩ := exists_leading_byte c
  have hbyte := token_byte h (List.mem_flatMap.mpr ⟨c, hc, hb⟩)
  have hnat : c.toNat = b.toNat := by omega
  refine ⟨?_, ?_, ?_, ?_⟩
  · simp only [isWhitespace, hnat, Bool.or_eq_false_iff, Bool.and_eq_false_iff,
      decide_eq_false_iff_not, beq_eq_false_iff_ne]
    omega
  all_goals
    rintro rfl
    rw [← hnat] at hbyte
    revert hbyte
    decide

theorem token_ne_nil (h : isToken (encode value) = true) : value ≠ [] := by
  rintro rfl
  cases h

theorem token_tight (h : isToken (encode value) = true) : Tight value :=
  ⟨fun _ hc => (token_char h (List.mem_of_mem_head? hc)).1,
    fun _ hc => (token_char h (List.mem_of_getLast? hc)).1⟩

theorem validateQuotedValue_ok : validateQuotedValue value = .ok () ↔ QuotedBody value := by
  fun_induction validateQuotedValue value with
  | case1 => exact ⟨fun _ => .nil, fun _ => rfl⟩
  | case2 =>
    refine ⟨fun h => (by cases h), fun h => ?_⟩
    cases h with
    | text hc _ => exact absurd hc (by decide)
  | case3 escaped rest ih =>
    rw [Except.bind_ok_iff, validateQuotedPair]
    constructor
    · rintro ⟨_, hpair, hrest⟩
      split_ifs at hpair with hc
      exact .pair hc (ih.mp hrest)
    · intro h
      cases h with
      | text hc _ => exact absurd hc (by decide)
      | pair hc hrest => exact ⟨(), if_pos hc, ih.mpr hrest⟩
  | case4 c rest hlone hpair hc ih =>
    rw [ih]
    refine ⟨.text hc, fun h => ?_⟩
    cases h with
    | text _ hrest => exact hrest
    | pair _ hrest => exact (hpair _ _ rfl rfl).elim
  | case5 c rest hlone hpair hc =>
    refine ⟨fun h => (by cases h), fun h => ?_⟩
    cases h with
    | text htext _ => exact absurd htext hc
    | pair _ hrest => exact (hpair _ _ rfl rfl).elim

theorem SpellsValue.tight (h : SpellsValue parsed value) : Tight value := by
  cases h with
  | unquoted htoken => exact token_tight htoken
  | quoted _ =>
    refine ⟨fun c hc => ?_, fun c hc => ?_⟩
    · obtain rfl := Option.some.inj hc
      decide
    · rw [← List.cons_append, List.getLast?_concat] at hc
      obtain rfl := Option.some.inj hc
      decide

theorem SpellsValue.ne_nil (h : SpellsValue parsed value) : value ≠ [] := by
  cases h with
  | unquoted htoken => exact token_ne_nil htoken
  | quoted _ => exact List.cons_ne_nil _ _

theorem parseParameterValue_ok :
    parseParameterValue value = .ok parsed ↔ SpellsValue parsed value := by
  constructor
  · intro h
    rw [parseParameterValue] at h
    split at h
    next quoted hquoted =>
      obtain rfl := eq_of_stripPrefixChar hquoted
      split at h
      next inner hinner =>
        obtain rfl := eq_of_stripSuffixChar hinner
        obtain ⟨_, hvalid, hparsed⟩ := Except.bind_ok_iff.mp h
        obtain rfl := Except.ok.inj hparsed
        exact .quoted (validateQuotedValue_ok.mp hvalid)
      · cases h
    · split_ifs at h with htoken
      obtain rfl := Except.ok.inj h
      exact .unquoted htoken
  · intro h
    cases h with
    | unquoted htoken =>
      have hquote : '"' ∉ value := fun hmem => (token_char htoken hmem).2.1 rfl
      rw [parseParameterValue, stripPrefixChar_ne hquote]
      exact if_pos htoken
    | @quoted inner hbody =>
      rw [parseParameterValue, stripPrefixChar, if_pos rfl]
      dsimp only
      rw [stripSuffixChar_append]
      exact Except.bind_ok_iff.mpr ⟨(), validateQuotedValue_ok.mpr hbody, rfl⟩

theorem parseParameter_ok {parameter : HeaderParameter} :
    parseParameter (trim segment) = .ok parameter ↔ SpellsParameter parameter segment := by
  constructor
  · intro h
    rw [parseParameter] at h
    split at h
    · cases h
    next key value hsplit =>
      split_ifs at h with htoken
      obtain ⟨parsed, hparsed, hparameter⟩ := Except.bind_ok_iff.mp h
      obtain rfl := Except.ok.inj hparameter
      obtain ⟨a, d, ha, hd, hsegment⟩ := exists_pad segment
      obtain ⟨a', b, ha', hb, hkey⟩ := exists_pad key
      obtain ⟨c, d', hc, hd', hvalue⟩ := exists_pad value
      have hspelled : segment =
          (a ++ a') ++ trim key ++ b ++ '=' :: (c ++ trim value ++ (d' ++ d)) := by
        rw [hsegment, splitOnce_eq_some hsplit]
        nth_rewrite 1 [hkey]
        nth_rewrite 1 [hvalue]
        simp only [List.append_assoc, List.cons_append]
      rw [hspelled]
      exact .mk htoken (parseParameterValue_ok.mp hparsed)
        (fun x hx => (List.mem_append.mp hx).elim (ha x) (ha' x)) hb hc
        (fun x hx => (List.mem_append.mp hx).elim (hd' x) (hd x))
  · intro h
    cases h with
    | @mk name value a b c d parsed hname hvalue ha hb hc hd =>
      have htight : Tight (name ++ (b ++ '=' :: c) ++ value) :=
        (token_tight hname).append _ hvalue.tight (token_ne_nil hname) hvalue.ne_nil
      have htrim : trim (a ++ name ++ b ++ '=' :: (c ++ value ++ d)) =
          (name ++ b) ++ '=' :: (c ++ value) := by
        have hpad := trim_pad ha htight hd
        simp only [List.append_assoc, List.cons_append] at hpad ⊢
        exact hpad
      have hequals : '=' ∉ name ++ b := by
        intro hmem
        rcases List.mem_append.mp hmem with hmem | hmem
        · exact (token_char hname hmem).2.2.2 rfl
        · exact blank_notMem hb (by decide) hmem
      have hkey : trim (name ++ b) = name :=
        trim_pad (a := []) (by simp [Blank]) (token_tight hname) hb
      have hval : trim (c ++ value) = value := by
        have hpad := trim_pad (b := []) hc hvalue.tight (by simp [Blank])
        rwa [List.append_nil] at hpad
      rw [htrim, parseParameter, splitOnce_append hequals]
      dsimp only
      rw [hkey, hval, if_pos hname]
      exact Except.bind_ok_iff.mpr ⟨parsed, parseParameterValue_ok.mpr hvalue, rfl⟩

inductive Enclosed : Text → Prop
  | nil : Enclosed []
  | text {c : Char} {rest : Text} (hquote : c ≠ '"') (hslash : c ≠ '\\') (h : Enclosed rest) :
      Enclosed (c :: rest)
  | pair (c : Char) {rest : Text} (h : Enclosed rest) : Enclosed ('\\' :: c :: rest)

/-- Plain characters and complete quoted strings. -/
inductive Balanced (Plain : Char → Prop) : Text → Prop
  | nil : Balanced Plain []
  | plain {c : Char} {rest : Text} (hc : Plain c) (h : Balanced Plain rest) :
      Balanced Plain (c :: rest)
  | quoted {body rest : Text} (hbody : Enclosed body) (h : Balanced Plain rest) :
      Balanced Plain ('"' :: (body ++ '"' :: rest))

inductive Unclosed : Text → Prop
  | nil : Unclosed []
  | dangling : Unclosed ['\\']
  | text {c : Char} {rest : Text} (hquote : c ≠ '"') (hslash : c ≠ '\\') (h : Unclosed rest) :
      Unclosed (c :: rest)
  | pair (c : Char) {rest : Text} (h : Unclosed rest) : Unclosed ('\\' :: c :: rest)

def Inert (c : Char) : Prop := c ≠ '"' ∧ c ≠ ';'

theorem QuotedBody.enclosed (h : QuotedBody body) : Enclosed body := by
  induction h with
  | nil => exact .nil
  | text hc _ ih =>
    refine .text ?_ ?_ ih <;>
    · rintro rfl
      exact absurd hc (by decide)
  | pair _ _ ih => exact .pair _ ih

namespace Balanced

variable {Plain Plain' : Char → Prop} {s t : Text}

theorem append (hs : Balanced Plain s) (ht : Balanced Plain t) : Balanced Plain (s ++ t) := by
  induction hs with
  | nil => exact ht
  | plain hc _ ih => exact .plain hc ih
  | quoted hbody _ ih =>
    rw [List.cons_append, List.append_assoc, List.cons_append]
    exact .quoted hbody ih

theorem of_plain (h : ∀ c ∈ t, Plain c) : Balanced Plain t := by
  induction t with
  | nil => exact .nil
  | cons c rest ih =>
    exact .plain (h c (List.mem_cons_self ..)) (ih fun x hx => h x (List.mem_cons_of_mem _ hx))

theorem mono (himp : ∀ c, Plain c → Plain' c) (h : Balanced Plain t) : Balanced Plain' t := by
  induction h with
  | nil => exact .nil
  | plain hc _ ih => exact .plain (himp _ hc) ih
  | quoted hbody _ ih => exact .quoted hbody ih

end Balanced

theorem Enclosed.closing_unique {body' rest' : Text} (h : Enclosed body) (h' : Enclosed body')
    (heq : body ++ '"' :: rest = body' ++ '"' :: rest') : rest = rest' := by
  induction h generalizing body' with
  | nil =>
    cases h' with
    | nil => exact (List.cons.inj heq).2
    | text hquote _ _ => exact absurd (List.cons.inj heq).1.symm hquote
    | pair c _ => exact absurd (List.cons.inj heq).1 (by decide)
  | text hquote hslash _ ih =>
    cases h' with
    | nil => exact absurd (List.cons.inj heq).1 hquote
    | text _ _ h' => exact ih h' (List.cons.inj heq).2
    | pair c _ => exact absurd (List.cons.inj heq).1 hslash
  | pair c _ ih =>
    cases h' with
    | nil => exact absurd (List.cons.inj heq).1 (by decide)
    | text _ hslash _ => exact absurd (List.cons.inj heq).1.symm hslash
    | pair c' h' => exact ih h' (List.cons.inj (List.cons.inj heq).2).2

theorem Unclosed.not_closed {inside : Text} (h : Unclosed body) (hinside : Enclosed inside)
    (heq : body = inside ++ '"' :: rest) : False := by
  induction hinside generalizing body with
  | nil =>
    cases h with
    | nil => cases heq
    | dangling => exact absurd (List.cons.inj heq).1 (by decide)
    | text hquote _ _ => exact hquote (List.cons.inj heq).1
    | pair c _ => exact absurd (List.cons.inj heq).1 (by decide)
  | text hquote hslash _ ih =>
    cases h with
    | nil => cases heq
    | dangling => exact hslash (List.cons.inj heq).1.symm
    | text _ _ h => exact ih h (List.cons.inj heq).2
    | pair c _ => exact hslash (List.cons.inj heq).1.symm
  | pair c _ ih =>
    cases h with
    | nil => cases heq
    | dangling => cases (List.cons.inj heq).2
    | text _ hslash _ => exact hslash (List.cons.inj heq).1
    | pair c' h => exact ih h (List.cons.inj (List.cons.inj heq).2).2

theorem Balanced.of_append {Plain : Char → Prop} (hplain : ∀ c, Plain c → c ≠ '"') {s t : Text}
    (hs : Balanced Plain s) (h : Balanced Plain (s ++ t)) : Balanced Plain t := by
  induction hs with
  | nil => exact h
  | plain hc _ ih =>
    rw [List.cons_append] at h
    generalize hwhole : _ :: _ = whole at h
    cases h with
    | nil => cases hwhole
    | plain _ h =>
      obtain ⟨_, rfl⟩ := List.cons.inj hwhole
      exact ih h
    | quoted _ _ => exact absurd (List.cons.inj hwhole).1 (hplain _ hc)
  | quoted hbody _ ih =>
    rw [List.cons_append, List.append_assoc, List.cons_append] at h
    generalize hwhole : _ :: _ = whole at h
    cases h with
    | nil => cases hwhole
    | plain hc _ =>
      obtain ⟨rfl, _⟩ := List.cons.inj hwhole
      exact absurd rfl (hplain _ hc)
    | quoted hbody' h =>
      obtain rfl := hbody.closing_unique hbody' (List.cons.inj hwhole).2
      exact ih h

theorem not_balanced_of_unclosed {Plain : Char → Prop} (hplain : ∀ c, Plain c → c ≠ '"')
    {before : Text} (hbefore : Balanced Plain before) (hbody : Unclosed body) :
    ¬Balanced Plain (before ++ '"' :: body) := by
  intro h
  have hrest := hbefore.of_append hplain h
  generalize hwhole : '"' :: body = whole at hrest
  cases hrest with
  | nil => cases hwhole
  | plain hc _ =>
    obtain ⟨rfl, _⟩ := List.cons.inj hwhole
    exact hplain _ hc rfl
  | quoted hinside _ => exact hbody.not_closed hinside (List.cons.inj hwhole).2

theorem SpellsValue.balanced (h : SpellsValue parsed value) : Balanced Inert value := by
  cases h with
  | unquoted htoken =>
    exact .of_plain fun c hc => ⟨(token_char htoken hc).2.1, (token_char htoken hc).2.2.1⟩
  | quoted hbody => exact .quoted hbody.enclosed .nil

theorem blank_balanced {a : Text} (h : Blank a) : Balanced Inert a := by
  refine .of_plain fun c hc => ⟨?_, ?_⟩ <;>
  · rintro rfl
    exact blank_notMem h (by decide) hc

theorem SpellsParameter.balanced {parameter : HeaderParameter}
    (h : SpellsParameter parameter segment) : Balanced Inert segment := by
  cases h with
  | mk hname hvalue ha hb hc hd =>
    have htoken : Balanced Inert _ := (SpellsValue.unquoted hname).balanced
    have hright := ((blank_balanced hc).append hvalue.balanced).append (blank_balanced hd)
    exact (((blank_balanced ha).append htoken).append (blank_balanced hb)).append
      (.plain (by unfold Inert; decide) hright)

theorem Spells.balanced {text : Text} (h : Spells parameters text) : Balanced (· ≠ '"') text := by
  induction h with
  | last h => exact h.balanced.mono fun _ hc => hc.1
  | more h _ ih => exact (h.balanced.mono fun _ hc => hc.1).append (.plain (by decide) ih)

theorem splitNextParameterFrom_enclosed (h : Enclosed body) (read rest : Text) :
    splitNextParameterFrom read true false (body ++ '"' :: rest) =
      splitNextParameterFrom ('"' :: (body.reverse ++ read)) false false rest := by
  induction h generalizing read with
  | nil => rfl
  | @text c body hquote hslash _ ih =>
    rw [List.cons_append, splitNextParameterFrom.eq_def]
    simp only
    split
    all_goals first
      | contradiction
      | (rw [ih, List.reverse_cons, List.append_assoc]; rfl)
  | @pair c body _ ih =>
    rw [List.cons_append, List.cons_append, splitNextParameterFrom, splitNextParameterFrom, ih,
      List.reverse_cons, List.reverse_cons, List.append_assoc, List.append_assoc]
    rfl

theorem splitNextParameterFrom_balanced (h : Balanced Inert segment) (read rest : Text) :
    splitNextParameterFrom read false false (segment ++ rest) =
      splitNextParameterFrom (segment.reverse ++ read) false false rest := by
  induction h generalizing read with
  | nil => rfl
  | @plain c segment hc _ ih =>
    rw [List.cons_append, splitNextParameterFrom.eq_def]
    simp only
    split
    all_goals first
      | contradiction
      | exact absurd rfl hc.1
      | exact absurd rfl hc.2
      | (rw [ih, List.reverse_cons, List.append_assoc]; rfl)
  | @quoted body segment hbody _ ih =>
    have hopen : splitNextParameterFrom read false false
        ('"' :: (body ++ '"' :: (segment ++ rest))) =
        splitNextParameterFrom ('"' :: read) true false (body ++ '"' :: (segment ++ rest)) := rfl
    rw [List.cons_append, List.append_assoc, List.cons_append, hopen,
      splitNextParameterFrom_enclosed hbody, ih]
    simp [List.append_assoc]

theorem splitNextParameterFrom_some {read input : Text} {q e : Bool}
    (h : splitNextParameterFrom read q e input = .ok (segment, some rest)) :
    ∃ raw, input = raw ++ ';' :: rest ∧ segment = trim (read.reverse ++ raw) := by
  induction input generalizing read q e with
  | nil =>
    simp only [splitNextParameterFrom] at h
    split_ifs at h; simp at h
  | cons ch input ih =>
    rw [splitNextParameterFrom.eq_def] at h
    simp only at h
    -- every branch but the separator's reads on
    have hread : ∀ {q e : Bool}, splitNextParameterFrom (ch :: read) q e input =
        .ok (segment, some rest) →
        ∃ raw, ch :: input = raw ++ ';' :: rest ∧ segment = trim (read.reverse ++ raw) := by
      intro q e h
      obtain ⟨raw, rfl, rfl⟩ := ih h
      exact ⟨ch :: raw, rfl, by rw [List.reverse_cons, List.append_assoc]; rfl⟩
    split at h
    all_goals first
      | exact hread h
      | skip
    rw [parameterSegment] at h
    split_ifs at h
    obtain ⟨rfl, hrest⟩ := Prod.mk.inj (Except.ok.inj h)
    obtain rfl := Option.some.inj hrest
    exact ⟨[], rfl, by rw [List.append_nil]⟩

theorem splitNextParameterFrom_none {read input : Text} {q e : Bool}
    (h : splitNextParameterFrom read q e input = .ok (segment, none)) :
    segment = trim (read.reverse ++ input) := by
  induction input generalizing read q e with
  | nil =>
    simp only [splitNextParameterFrom] at h
    split_ifs at h
    rw [List.append_nil]
    exact (Prod.mk.inj (Except.ok.inj h)).1.symm
  | cons ch input ih =>
    rw [splitNextParameterFrom.eq_def] at h
    simp only at h
    have hread : ∀ {q e : Bool}, splitNextParameterFrom (ch :: read) q e input =
        .ok (segment, none) → segment = trim (read.reverse ++ ch :: input) := by
      intro q e h
      rw [ih h, List.reverse_cons, List.append_assoc]
      rfl
    split at h
    all_goals first
      | exact hread h
      | skip
    rw [parameterSegment] at h
    split_ifs at h
    cases h

theorem SpellsParameter.trim_ne_nil {parameter : HeaderParameter}
    (h : SpellsParameter parameter segment) : trim segment ≠ [] := by
  intro hnil
  have hparse := parseParameter_ok.mpr h
  rw [hnil] at hparse
  cases hparse

theorem SpellsParameter.split_last {parameter : HeaderParameter}
    (h : SpellsParameter parameter segment) :
    splitNextParameter segment = .ok (trim segment, none) := by
  have hscan := splitNextParameterFrom_balanced h.balanced [] []
  rw [List.append_nil, List.append_nil] at hscan
  rw [splitNextParameter, hscan, splitNextParameterFrom]
  simp [h.trim_ne_nil]

theorem SpellsParameter.split_more {parameter : HeaderParameter}
    (h : SpellsParameter parameter segment) (rest : Text) :
    splitNextParameter (segment ++ ';' :: rest) = .ok (trim segment, some rest) := by
  rw [splitNextParameter, splitNextParameterFrom_balanced h.balanced]
  have hend : ∀ read, splitNextParameterFrom read false false (';' :: rest) =
      parameterSegment (trim read.reverse) rest := fun _ => rfl
  rw [hend, List.append_nil, List.reverse_reverse, parameterSegment]
  simp [h.trim_ne_nil]

theorem HeaderParameters.fold_some {σ : Type} (f : σ → HeaderParameter → Except RuntimeError σ)
    (acc : σ) {ps rest : HeaderParameters} {parameter : Except RuntimeError HeaderParameter}
    (h : ps.nextParameter = some (parameter, rest)) :
    ps.fold f acc =
      parameter >>= fun parameter => f acc parameter >>= fun acc => rest.fold f acc := by
  have hturns := nextParameter_turns h
  obtain ⟨m, hm⟩ : ∃ m, ps.turns = m + 1 := ⟨ps.turns - 1, by omega⟩
  rw [fold, hm, foldWithin, h]
  dsimp only
  cases parameter with
  | error e => rfl
  | ok parameter =>
    simp only [bind, Except.bind]
    cases f acc parameter with
    | error e => rfl
    | ok acc => exact foldWithin_turns f rest acc m (by omega)

theorem HeaderParameters.next_of_split {text : Text} {next : Option Text}
    (h : splitNextParameter text = .ok (segment, next)) :
    (⟨some text⟩ : HeaderParameters).nextParameter = some (parseParameter segment, ⟨next⟩) := by
  simp only [nextParameter, h]

theorem HeaderParameters.next_of_error {text : Text} {e : RuntimeError}
    (h : splitNextParameter text = .error e) :
    (⟨some text⟩ : HeaderParameters).nextParameter = some (.error e, ⟨none⟩) := by
  simp only [nextParameter, h]

theorem spells_of_fold {text : Text} {read all : List HeaderParameter}
    (h : (⟨some text⟩ : HeaderParameters).fold push read = .ok all) :
    ∃ parameters, Spells parameters text ∧ all = read ++ parameters := by
  -- the rest of a text is shorter than the text
  induction hlength : text.length using Nat.strong_induction_on generalizing text read with
  | _ length ih =>
    cases hsplit : splitNextParameter text with
    | error e =>
      rw [fold_some push read (next_of_error hsplit)] at h
      cases h
    | ok split =>
      obtain ⟨segment, next⟩ := split
      rw [fold_some push read (next_of_split hsplit)] at h
      obtain ⟨parameter, hparameter, hrest⟩ := Except.bind_ok_iff.mp h
      replace hrest : (⟨next⟩ : HeaderParameters).fold push (read ++ [parameter]) = .ok all := hrest
      cases next with
      | none =>
        obtain rfl := splitNextParameterFrom_none hsplit
        exact ⟨[parameter], .last (parseParameter_ok.mp hparameter),
          (Except.ok.inj hrest).symm⟩
      | some rest =>
        obtain ⟨raw, rfl, rfl⟩ := splitNextParameterFrom_some hsplit
        obtain ⟨parameters, hspells, rfl⟩ := ih rest.length (by simp at hlength; omega) hrest rfl
        refine ⟨parameter :: parameters, .more (parseParameter_ok.mp hparameter) hspells, ?_⟩
        rw [List.append_assoc, List.singleton_append]

theorem fold_of_spells {text : Text} (h : Spells parameters text) (read : List HeaderParameter) :
    (⟨some text⟩ : HeaderParameters).fold push read = .ok (read ++ parameters) := by
  induction h generalizing read with
  | last hparameter =>
    rw [fold_some push read
      (next_of_split hparameter.split_last), parseParameter_ok.mpr hparameter]
    rfl
  | more hparameter _ ih =>
    rw [fold_some push read
      (next_of_split (hparameter.split_more _)),
      parseParameter_ok.mpr hparameter]
    refine (ih _).trans ?_
    rw [List.append_assoc, List.singleton_append]

theorem collect_ok {text : Text} :
    (⟨some text⟩ : HeaderParameters).collect = .ok parameters ↔ Spells parameters text := by
  constructor
  · intro h
    obtain ⟨spelled, hspells, rfl⟩ := spells_of_fold h
    exact hspells
  · intro h
    exact fold_of_spells h []

def escape (value : Text) : Text :=
  value.flatMap fun c => if c = '"' ∨ c = '\\' then ['\\', c] else [c]

structure Written where
  name : Text
  value : Text
  beforeName : Text
  afterName : Text
  beforeValue : Text
  afterValue : Text

def isValueChar (c : Char) : Bool := c == '\t' || (' ' ≤ c && c ≤ '~') || !isAscii c

def isSpaceOrTab (c : Char) : Bool := c == ' ' || c == '\t'

namespace Written

structure Valid (written : Written) : Prop where
  name : isToken (encode written.name) = true
  value : ∀ c ∈ written.value, isValueChar c = true
  padding : ∀ c ∈ written.beforeName ++ written.afterName ++ written.beforeValue ++
    written.afterValue, isSpaceOrTab c = true

def text (written : Written) : Text :=
  written.beforeName ++ written.name ++ written.afterName ++
    '=' :: (written.beforeValue ++ ('"' :: (escape written.value ++ ['"'])) ++ written.afterValue)

def parameter (written : Written) : HeaderParameter :=
  ⟨written.name, .quoted (escape written.value)⟩

end Written

def writeParameters : List Written → Text
  | [] => []
  | [written] => written.text
  | written :: rest => written.text ++ ';' :: writeParameters rest

theorem escape_cons (c : Char) (value : Text) :
    escape (c :: value) =
      (if c = '"' ∨ c = '\\' then ['\\', c] else [c]) ++ escape value := rfl

theorem isQuotedText_of_plain {c : Char} (h : isValueChar c = true)
    (hspecial : ¬(c = '"' ∨ c = '\\')) : isQuotedText c = true := by
  have hquote : c.toNat ≠ 34 := fun heq => hspecial (.inl (Char.toNat_inj.mp heq))
  have hslash : c.toNat ≠ 92 := fun heq => hspecial (.inr (Char.toNat_inj.mp heq))
  have hspace : c.toNat = 32 → c = ' ' := fun heq => Char.toNat_inj.mp heq
  have hbang : c.toNat = 33 → c = '!' := fun heq => Char.toNat_inj.mp heq
  have hle : ∀ a b : Char, a ≤ b ↔ a.toNat ≤ b.toNat := fun _ _ => Iff.rfl
  simp only [isValueChar, isQuotedText, Bool.or_eq_true, Bool.and_eq_true, decide_eq_true_eq,
    beq_iff_eq, hle, Char.reduceToNat] at h ⊢
  rcases h with (htab | hprintable) | hwide
  · simp [htab]
  · by_cases h32 : c.toNat = 32
    · simp [hspace h32]
    by_cases h33 : c.toNat = 33
    · simp [hbang h33]
    have hrange : (35 ≤ c.toNat ∧ c.toNat ≤ 91) ∨ (93 ≤ c.toNat ∧ c.toNat ≤ 126) := by omega
    rcases hrange with hlow | hhigh
    · exact .inl (.inl (.inr hlow))
    · exact .inl (.inr hhigh)
  · simp [hwide]

theorem quotedBody_escape (h : ∀ c ∈ value, isValueChar c = true) : QuotedBody (escape value) := by
  induction value with
  | nil => exact .nil
  | cons c value ih =>
    have hrest := ih fun x hx => h x (List.mem_cons_of_mem _ hx)
    have hc := h c (List.mem_cons_self ..)
    rw [escape_cons]
    split_ifs with hspecial
    · exact .pair hc hrest
    · exact .text (isQuotedText_of_plain hc hspecial) hrest

theorem unescape_escape (value : Text) : unescape false (escape value) = value := by
  induction value with
  | nil => rfl
  | cons c value ih =>
    rw [escape_cons]
    split_ifs with hspecial
    · rw [List.cons_append, List.cons_append, List.nil_append, unescape, if_pos rfl, unescape, ih]
    · have hslash : c ≠ '\\' := fun heq => hspecial (.inr heq)
      rw [List.singleton_append, unescape, if_neg hslash, ih]

theorem unescape_of_notMem (h : '\\' ∉ value) : unescape false value = value := by
  induction value with
  | nil => rfl
  | cons c value ih =>
    have hslash : c ≠ '\\' := fun heq => h (heq ▸ List.mem_cons_self ..)
    rw [unescape, if_neg hslash, ih fun hmem => h (List.mem_cons_of_mem _ hmem)]

theorem decodeQuotedValue_escape (value : Text) : decodeQuotedValue (escape value) = value := by
  rw [decodeQuotedValue]
  split_ifs with hslash
  · have hnot : '\\' ∉ escape value := by simpa using hslash
    exact (unescape_of_notMem hnot).symm.trans (unescape_escape value)
  · exact unescape_escape value

theorem Written.Valid.spells {written : Written} (h : written.Valid) :
    SpellsParameter written.parameter written.text := by
  have hblank : ∀ c, isSpaceOrTab c = true → isWhitespace c = true := by
    intro c hc
    rcases Bool.or_eq_true_iff.mp hc with hc | hc <;>
    · obtain rfl := eq_of_beq hc
      decide
  have hpadding : ∀ c, (c ∈ written.beforeName ∨ c ∈ written.afterName ∨
      c ∈ written.beforeValue ∨ c ∈ written.afterValue) → isWhitespace c = true := by
    intro c hc
    refine hblank c (h.padding c ?_)
    simpa only [List.mem_append, or_assoc] using hc
  exact .mk h.name (.quoted (quotedBody_escape h.value))
    (fun c hc => hpadding c (.inl hc)) (fun c hc => hpadding c (.inr (.inl hc)))
    (fun c hc => hpadding c (.inr (.inr (.inl hc))))
    (fun c hc => hpadding c (.inr (.inr (.inr hc))))

theorem spells_writeParameters {written : List Written} (hne : written ≠ [])
    (h : ∀ w ∈ written, w.Valid) :
    Spells (written.map Written.parameter) (writeParameters written) := by
  fun_induction writeParameters written with
  | case1 => exact absurd rfl hne
  | case2 w => exact .last (h w (List.mem_cons_self ..)).spells
  | case3 w rest hmany ih =>
    exact .more (h w (List.mem_cons_self ..)).spells
      (ih hmany fun x hx => h x (List.mem_cons_of_mem _ hx))

def headerParameters (header : Text) : Except RuntimeError (Text × List HeaderParameter) := do
  let (head, parameters) ← splitHeaderParams header
  let parameters ← parameters.collect
  .ok (head, parameters)

/-- Parameters written with quoted values are read back, names and decoded values in order, from
behind any head that is not blank and has no semicolon; a text is read as a list of parameters only
if it spells that list, each value a token or a whole quoted string without a bare quote or a lone
backslash in it; and where a quote is opened and never closed, the text is refused. -/
theorem quoted_parameters_round_trip :
    (∀ (head : Text) (written : List Written), ';' ∉ head → trim head ≠ [] → written ≠ [] →
      (∀ w ∈ written, w.Valid) →
      ∃ parameters,
        headerParameters (head ++ ';' :: writeParameters written) = .ok (trim head, parameters) ∧
        parameters.map HeaderParameter.name = written.map Written.name ∧
        parameters.map (fun p => p.value.decode) = written.map Written.value) ∧
    (∀ text parameters, (⟨some text⟩ : HeaderParameters).collect = .ok parameters ↔
      Spells parameters text) ∧
    ∀ before body, Balanced (· ≠ '"') before → Unclosed body →
      ∃ e, (⟨some (before ++ '"' :: body)⟩ : HeaderParameters).collect = .error e := by
  refine ⟨fun head written hhead hblank hne hvalid => ?_, fun _ _ => collect_ok, ?_⟩
  · refine ⟨written.map Written.parameter, ?_, ?_, ?_⟩
    · have hcollect := collect_ok.mpr (spells_writeParameters hne hvalid)
      have hsplit : splitHeaderParams (head ++ ';' :: writeParameters written) =
          .ok (trim head, ⟨some (writeParameters written)⟩) := by
        rw [splitHeaderParams, splitOnce_append hhead]
        simp [hblank]
      rw [headerParameters, hsplit]
      exact Except.bind_ok_iff.mpr ⟨_, rfl, Except.bind_ok_iff.mpr ⟨_, hcollect, rfl⟩⟩
    · rw [List.map_map]
      rfl
    · rw [List.map_map]
      refine List.map_congr_left fun w _ => ?_
      exact decodeQuotedValue_escape w.value
  · intro before body hbefore hbody
    refine Except.error_of_not_ok fun parameters hok => ?_
    exact not_balanced_of_unclosed (fun _ hc => hc) hbefore hbody (collect_ok.mp hok).balanced

def sampleWritten : Written := ⟨"filename".toList, "a\";\\ b".toList, [' '], [], ['\t'], [' ']⟩

theorem quoted_parameters_round_trip_sampleWritten :
    ∃ parameters,
      headerParameters ("form-data".toList ++ ';' :: writeParameters [sampleWritten]) =
        .ok (trim "form-data".toList, parameters) ∧
      parameters.map HeaderParameter.name = [sampleWritten].map Written.name ∧
      parameters.map (fun p => p.value.decode) = [sampleWritten].map Written.value := by
  refine quoted_parameters_round_trip.1 "form-data".toList [sampleWritten] (by decide)
    (by decide) (List.cons_ne_nil _ _) fun w hw => ?_
  obtain rfl := List.mem_singleton.mp hw
  exact ⟨by decide, List.all_eq_true.mp (by decide),
    List.all_eq_true.mp (by decide)⟩

/-- A blank head is refused whatever follows it. -/
theorem blank_head_refused :
    headerParameters ([] ++ ';' :: writeParameters [⟨"a".toList, "b".toList, [], [], [], []⟩]) =
      .error (malformed "invalid multipart header") := by
  decide

end Camber.Multipart
