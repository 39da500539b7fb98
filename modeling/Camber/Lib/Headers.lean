import Camber.Lib.Utf8

/-! HTTP header maps: the fields in order, a name in lower case, a value as bytes. -/

namespace Http
open Str

structure HeaderName where
  text : Text
  lower : text.map Char.toLower = text

abbrev HeaderMap := List (HeaderName × Bytes)

/-- The values under one name, which is given in lower case. -/
def getAll (headers : HeaderMap) (name : Text) : List Bytes :=
  headers.filterMap fun header => if header.1.text = name then some header.2 else none

def isVisible (b : UInt8) : Bool := (32 ≤ b && b < 127) || b == 9

/-- A value as text, when all its bytes are visible. -/
def toStr (value : Bytes) : Option Text :=
  if value.all isVisible then some (value.map fun b => Char.ofNat b.toNat) else none

/-- A value as UTF-8 text, empty where its bytes are not. -/
def textOf (value : Bytes) : Text := (decode value).getD []

def texts (headers : HeaderMap) : List (Text × Text) :=
  headers.map fun header => (header.1.text, textOf header.2)

theorem eqIgnoreAsciiCase_iff {s t : Text} (ht : t.map Char.toLower = t) :
    eqIgnoreAsciiCase s t = true ↔ s.map Char.toLower = t := by
  rw [eqIgnoreAsciiCase, beq_iff_eq, ht]

theorem HeaderName.eqIgnoreAsciiCase_iff (name : HeaderName) {t : Text}
    (ht : t.map Char.toLower = t) : eqIgnoreAsciiCase name.text t = true ↔ name.text = t := by
  rw [Http.eqIgnoreAsciiCase_iff ht, name.lower]

theorem filterMap_texts (headers : HeaderMap) {name : Text} (hname : name.map Char.toLower = name) :
    (texts headers).filterMap
        (fun field => if eqIgnoreAsciiCase field.1 name then some field.2 else none) =
      (getAll headers name).map textOf := by
  rw [texts, List.filterMap_map, getAll, List.map_filterMap]
  apply List.filterMap_congr
  intro header _
  by_cases h : header.1.text = name
  · rw [Function.comp_apply, if_pos h, if_pos ((header.1.eqIgnoreAsciiCase_iff hname).mpr h)]
    rfl
  · rw [Function.comp_apply, if_neg h,
      if_neg (fun heq => h ((header.1.eqIgnoreAsciiCase_iff hname).mp heq))]
    rfl

def Printable (c : Char) : Prop := 32 ≤ c.toNat ∧ c.toNat < 127

instance : DecidablePred Printable := fun _ => instDecidableAnd

theorem printable_of_toLower {c : Char} (h : Printable c.toLower) : Printable c := by
  by_cases hupper : c.val ≥ 'A'.val ∧ c.val ≤ 'Z'.val
  · simp only [ge_iff_le, UInt32.le_iff_toNat_le, Char.toNat_val, Char.reduceToNat] at hupper
    exact ⟨by omega, by omega⟩
  · have hsame : c.toLower = c := dif_neg hupper
    rwa [hsame] at h

theorem decode_of_visible {value : Bytes} (h : value.all isVisible) :
    decode value = some (value.map fun b => Char.ofNat b.toNat) := by
  induction value with
  | nil => rfl
  | cons b rest ih =>
    rw [List.all_cons, Bool.and_eq_true] at h
    have hb : b < 0x80 := by
      have := h.1
      simp only [isVisible, Bool.or_eq_true, Bool.and_eq_true, decide_eq_true_eq, beq_iff_eq,
        ← UInt8.toNat_inj, UInt8.lt_iff_toNat_lt, UInt8.le_iff_toNat_le, UInt8.reduceToNat] at this ⊢
      omega
    rw [decode_cons_ascii hb, ih h.2]
    rfl

theorem utf8EncodeChar_printable {c : Char} (h : Printable c) :
    String.utf8EncodeChar c = [UInt8.ofNat c.toNat] := by
  unfold Printable at h
  rw [String.utf8EncodeChar]
  simp only [Char.toNat_val]
  rw [if_pos (by omega)]

theorem visible_of_printable {text : Text} (h : ∀ c ∈ text, Printable c) :
    (encode text).all isVisible := by
  induction text with
  | nil => rfl
  | cons c rest ih =>
    have hc := h c List.mem_cons_self
    have hvisible : isVisible (UInt8.ofNat c.toNat) = true := by
      unfold Printable at hc
      simp only [isVisible, Bool.or_eq_true, Bool.and_eq_true, decide_eq_true_eq,
        UInt8.lt_iff_toNat_lt, UInt8.le_iff_toNat_le, UInt8.reduceToNat, UInt8.toNat_ofNat']
      left
      omega
    rw [encode, List.flatMap_cons, utf8EncodeChar_printable hc, List.singleton_append,
      List.all_cons, hvisible, Bool.true_and]
    exact ih fun c' hc' => h c' (List.mem_cons_of_mem c hc')

/-- Both readings of a value agree on whether it is one word of printable characters. -/
theorem eqIgnoreAsciiCase_toStr (value : Bytes) {word : Text} (hne : word ≠ [])
    (hlower : word.map Char.toLower = word) (hword : ∀ c ∈ word, Printable c) :
    eqIgnoreAsciiCase ((toStr value).getD []) word = eqIgnoreAsciiCase (textOf value) word := by
  by_cases hvisible : value.all isVisible
  · rw [toStr, if_pos hvisible, textOf, decode_of_visible hvisible]
  · rw [toStr, if_neg hvisible]
    have hempty : ¬ eqIgnoreAsciiCase [] word = true := by
      rw [eqIgnoreAsciiCase_iff hlower]
      exact fun h => hne h.symm
    have htext : ¬ eqIgnoreAsciiCase (textOf value) word = true := by
      intro heq
      cases hdecode : decode value with
      | none =>
        rw [textOf, hdecode] at heq
        exact hempty heq
      | some text =>
        -- every character of the text is a letter of the word in some case, so its byte is visible
        rw [textOf, hdecode, eqIgnoreAsciiCase_iff hlower] at heq
        apply hvisible
        rw [← encode_of_decode hdecode]
        apply visible_of_printable
        intro c hc
        apply printable_of_toLower
        apply hword
        rw [← heq]
        exact List.mem_map_of_mem hc
    rw [Option.getD_none, Bool.eq_false_iff.mpr hempty, Bool.eq_false_iff.mpr htext]

end Http
