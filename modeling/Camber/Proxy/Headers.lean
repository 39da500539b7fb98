import Camber.Dispatch.Head
import Camber.Multipart.Grammar

/-! What the three faces of the proxy forward. Two read a `Connection` that is no UTF-8 as empty. -/

namespace Camber.Proxy
open Str Http Dispatch

def isAsciiWhitespace (b : UInt8) : Bool := b == 32 || b == 9 || b == 10 || b == 12 || b == 13

def trimAscii (value : Bytes) : Bytes :=
  ((value.dropWhile isAsciiWhitespace).reverse.dropWhile isAsciiWhitespace).reverse

inductive HeaderValueRef where
  | text (text : Text)
  | bytes (bytes : Bytes)

namespace HeaderValueRef

def asBytes : HeaderValueRef → Bytes
  | text t => encode t
  | bytes b => b

def asStr : HeaderValueRef → Text
  | text t => t
  | bytes b => textOf b

end HeaderValueRef

structure ForwardedHeader where
  name : Text
  value : HeaderValueRef

def hopByHopNames : List Text :=
  ["connection", "keep-alive", "proxy-authenticate", "proxy-authorization", "proxy-connection",
    "te", "trailer", "transfer-encoding", "upgrade", "host"].map String.toList

def isHopByHop (name : Text) : Bool := hopByHopNames.any fun hop => eqIgnoreAsciiCase name hop

def hasNamePrefix (name start : Text) : Bool := eqIgnoreAsciiCase (name.take start.length) start

def isForwardedMetadata (name : Text) : Bool :=
  hasNamePrefix name "x-forwarded-".toList || eqIgnoreAsciiCase name "x-real-ip".toList ||
    eqIgnoreAsciiCase name "forwarded".toList

def valueTokens (value : Bytes) : List Bytes :=
  ((value.splitOn 44).map trimAscii).filter Multipart.isToken

def connectionTokens (headers : List (Text × Bytes)) : List Bytes :=
  (headers.filter fun header => eqIgnoreAsciiCase header.1 "connection".toList).flatMap
    fun header => valueTokens header.2

def isConnectionNamed (name : Text) (tokens : List Bytes) : Bool :=
  tokens.any fun token => Ascii.eqIgnoreCase token (encode name)

def connectionHeaderTokens (headers : List ForwardedHeader) : List Bytes :=
  connectionTokens (headers.map fun header => (header.name, header.value.asBytes))

/-- One header's part of the filter: what was sent so far, and the peer's own `Host`. -/
def filterStep (tokens : List Bytes) (filtered : List (Text × Text) × Option Text)
    (header : ForwardedHeader) : List (Text × Text) × Option Text :=
  if eqIgnoreAsciiCase header.name "host".toList then (filtered.1, some header.value.asStr)
  else if isHopByHop header.name || isForwardedMetadata header.name ||
      isConnectionNamed header.name tokens then filtered
  else (filtered.1 ++ [(header.name, header.value.asStr)], filtered.2)

def filterRequestHeaders (headers : List ForwardedHeader) (tokens : List Bytes) :
    List (Text × Text) × Option Text :=
  headers.foldl (filterStep tokens) ([], none)

def collectedHeaders (req : Request) : List ForwardedHeader :=
  req.headers.map fun header => ⟨header.1, .text header.2⟩

def mappedHeaders (headers : HeaderMap) : List ForwardedHeader :=
  headers.map fun header => ⟨header.1.text, .bytes header.2⟩

def isForwardableWsHeader (name : Text) : Bool :=
  eqIgnoreAsciiCase name "authorization".toList || eqIgnoreAsciiCase name "cookie".toList ||
    (hasNamePrefix name "x-".toList && !isForwardedMetadata name)

def forwardedOfferHeaders (req : Request) : List (Text × Text) :=
  let delegated := connectionTokens (req.headers.map fun header => (header.1, encode header.2))
  req.headers.filter fun header =>
    !isConnectionNamed header.1 delegated && isForwardableWsHeader header.1

def bufferedForwarded (req : Request) : List (Text × Text) :=
  (filterRequestHeaders (collectedHeaders req) (connectionHeaderTokens (collectedHeaders req))).1

def streamingForwarded (headers : HeaderMap) : List (Text × Text) :=
  (filterRequestHeaders (mappedHeaders headers) (connectionHeaderTokens (mappedHeaders headers))).1

def stops (tokens : List Bytes) (name : Text) : Bool :=
  isHopByHop name || isForwardedMetadata name || isConnectionNamed name tokens

theorem filterStep_fst (tokens : List Bytes) (filtered : List (Text × Text) × Option Text)
    (header : ForwardedHeader) :
    (filterStep tokens filtered header).1 =
      filtered.1 ++ if stops tokens header.name then [] else [(header.name, header.value.asStr)] := by
  unfold filterStep
  by_cases hhost : eqIgnoreAsciiCase header.name "host".toList
  · -- the host is itself one of the names that stop here
    have hstops : stops tokens header.name = true := by
      have hhop : isHopByHop header.name = true := by
        simp only [isHopByHop, hopByHopNames, List.map_cons, List.any_cons, hhost, Bool.or_true,
          Bool.true_or]
      rw [stops, hhop]
      rfl
    rw [if_pos hhost, if_pos hstops, List.append_nil]
  · rw [if_neg hhost]
    by_cases hstops : stops tokens header.name
    · rw [if_pos hstops, List.append_nil]
      exact congrArg Prod.fst (if_pos hstops)
    · rw [if_neg hstops]
      exact congrArg Prod.fst (if_neg hstops)

theorem filterRequestHeaders_fst (headers : List ForwardedHeader) (tokens : List Bytes) :
    (filterRequestHeaders headers tokens).1 =
      (headers.filter fun header => !stops tokens header.name).map
        fun header => (header.name, header.value.asStr) := by
  -- what was filtered before is general
  have hfold : ∀ start : List (Text × Text) × Option Text,
      (headers.foldl (filterStep tokens) start).1 = start.1 ++
        (headers.filter fun header => !stops tokens header.name).map
          fun header => (header.name, header.value.asStr) := by
    induction headers with
    | nil => simp
    | cons header rest ih =>
      intro start
      rw [List.foldl_cons, ih, filterStep_fst]
      by_cases hstops : stops tokens header.name <;> simp [hstops]
  exact hfold ([], none)

def rawTokens (headers : HeaderMap) : List Bytes :=
  connectionTokens (headers.map fun header => (header.1.text, header.2))

def readable (headers : HeaderMap) : HeaderMap := headers.filter fun header => (decode header.2).isSome

theorem connectionTokens_cons (name : Text) (value : Bytes) (rest : List (Text × Bytes)) :
    connectionTokens ((name, value) :: rest) =
      (if eqIgnoreAsciiCase name "connection".toList then valueTokens value else []) ++
        connectionTokens rest := by
  rw [connectionTokens, List.filter_cons]
  by_cases hname : eqIgnoreAsciiCase name "connection".toList
  · rw [if_pos hname, if_pos hname, List.flatMap_cons]
    rfl
  · rw [if_neg hname, if_neg hname, List.nil_append]
    rfl

theorem valueTokens_textOf (value : Bytes) :
    valueTokens (encode (textOf value)) = if (decode value).isSome then valueTokens value else [] := by
  unfold textOf
  cases hdecode : decode value with
  | none => rfl
  | some text =>
    rw [Option.getD_some, encode_of_decode hdecode]
    rfl

theorem connectionTokens_texts (headers : HeaderMap) :
    connectionTokens ((texts headers).map fun header => (header.1, encode header.2)) =
      rawTokens (readable headers) := by
  induction headers with
  | nil => rfl
  | cons header rest ih =>
    have htexts : (texts (header :: rest)).map (fun header => (header.1, encode header.2)) =
        (header.1.text, encode (textOf header.2)) ::
          (texts rest).map fun header => (header.1, encode header.2) := rfl
    rw [htexts, connectionTokens_cons, ih, valueTokens_textOf]
    by_cases hsome : (decode header.2).isSome
    · have hkept : readable (header :: rest) = header :: readable rest :=
        List.filter_cons_of_pos hsome
      rw [if_pos hsome, hkept]
      exact (connectionTokens_cons _ _ _).symm
    · have hleft : readable (header :: rest) = readable rest := List.filter_cons_of_neg hsome
      rw [if_neg hsome, ite_self, List.nil_append, hleft]

variable {headers : HeaderMap} {name : Text}

theorem mem_rawTokens_of_readable {token : Bytes} (h : token ∈ rawTokens (readable headers)) :
    token ∈ rawTokens headers := by
  have hsub : ((readable headers).map fun header => (header.1.text, header.2)).Sublist
      (headers.map fun header => (header.1.text, header.2)) :=
    List.Sublist.map _ List.filter_sublist
  obtain ⟨header, hmem, htoken⟩ := List.mem_flatMap.mp h
  exact List.mem_flatMap.mpr ⟨header, (hsub.filter _).subset hmem, htoken⟩

theorem isConnectionNamed_of_readable (h : isConnectionNamed name (rawTokens (readable headers))) :
    isConnectionNamed name (rawTokens headers) := by
  obtain ⟨token, htoken, heq⟩ := List.any_eq_true.mp h
  exact List.any_eq_true.mpr ⟨token, mem_rawTokens_of_readable htoken, heq⟩

theorem streamingForwarded_eq (headers : HeaderMap) :
    streamingForwarded headers =
      (headers.filter fun header => !stops (rawTokens headers) header.1.text).map
        fun header => (header.1.text, textOf header.2) := by
  have htokens : connectionHeaderTokens (mappedHeaders headers) = rawTokens headers := by
    simp only [connectionHeaderTokens, mappedHeaders, List.map_map, rawTokens]
    rfl
  rw [streamingForwarded, filterRequestHeaders_fst, htokens, mappedHeaders, List.filter_map,
    List.map_map]
  rfl

theorem bufferedForwarded_eq (req : Request) :
    bufferedForwarded req =
      (req.rawHeaders.filter fun header =>
          !stops (rawTokens (readable req.rawHeaders)) header.1.text).map
        fun header => (header.1.text, textOf header.2) := by
  have htokens : connectionHeaderTokens (collectedHeaders req) =
      rawTokens (readable req.rawHeaders) := by
    rw [← connectionTokens_texts]
    simp only [connectionHeaderTokens, collectedHeaders, List.map_map]
    rfl
  rw [bufferedForwarded, filterRequestHeaders_fst, htokens, collectedHeaders, Request.headers,
    texts, List.map_map, List.filter_map, List.map_map]
  rfl

theorem forwardedOfferHeaders_eq (req : Request) :
    forwardedOfferHeaders req = (texts req.rawHeaders).filter fun header =>
      !isConnectionNamed header.1 (rawTokens (readable req.rawHeaders)) &&
        isForwardableWsHeader header.1 := by
  rw [← connectionTokens_texts]
  rfl

theorem not_stops_of_forwardable (h : isForwardableWsHeader name) :
    isHopByHop name = false ∧ isForwardedMetadata name = false := by
  -- all three tests read the name in lower case only
  have hlower : ∀ start : Text, hasNamePrefix name start =
      ((name.map Char.toLower).take start.length == start.map Char.toLower) := by
    intro start
    rw [hasNamePrefix, eqIgnoreAsciiCase, List.map_take]
  simp only [isForwardableWsHeader, Bool.or_eq_true, Bool.and_eq_true, Bool.not_eq_true'] at h
  rcases h with (hname | hname) | ⟨hname, hmeta⟩
  · rw [eqIgnoreAsciiCase_iff (by decide)] at hname
    simp only [isHopByHop, isForwardedMetadata, hlower, eqIgnoreAsciiCase, hname]
    decide
  · rw [eqIgnoreAsciiCase_iff (by decide)] at hname
    simp only [isHopByHop, isForwardedMetadata, hlower, eqIgnoreAsciiCase, hname]
    decide
  · refine ⟨?_, hmeta⟩
    rw [hlower, beq_iff_eq] at hname
    rw [Bool.eq_false_iff]
    intro hhop
    obtain ⟨hop, hmem, heq⟩ := List.any_eq_true.mp hhop
    rw [eqIgnoreAsciiCase, beq_iff_eq] at heq
    rw [heq] at hname
    have hnone : ∀ hop ∈ hopByHopNames, (hop.map Char.toLower).take 2 ≠ "x-".toList := by decide
    exact hnone hop hmem hname

/-- A field no face may forward: a hop-by-hop one, forwarded metadata, or one a `Connection` value
names. -/
def MustStop (headers : HeaderMap) (name : Text) : Prop := stops (rawTokens headers) name

structure FiltersAlike (req : Request) : Prop where
  buffered : ∀ header ∈ bufferedForwarded req, ¬ MustStop req.rawHeaders header.1
  streaming : ∀ header ∈ streamingForwarded req.rawHeaders, ¬ MustStop req.rawHeaders header.1
  offered : ∀ header ∈ forwardedOfferHeaders req, ¬ MustStop req.rawHeaders header.1
  same : bufferedForwarded req = streamingForwarded req.rawHeaders

/-- Every field that a `Connection` value names stops anyway, or is also named by a `Connection`
value that is UTF-8. -/
def NamedInText (headers : HeaderMap) : Prop :=
  ∀ header ∈ headers, isConnectionNamed header.1.text (rawTokens headers) →
    isHopByHop header.1.text ∨ isForwardedMetadata header.1.text ∨
      isConnectionNamed header.1.text (rawTokens (readable headers))

theorem stops_iff {tokens : List Bytes} :
    stops tokens name = true ↔
      isHopByHop name ∨ isForwardedMetadata name ∨ isConnectionNamed name tokens := by
  rw [stops, Bool.or_eq_true, Bool.or_eq_true, or_assoc]

theorem stops_readable (h : NamedInText headers) {header : HeaderName × Bytes}
    (hmem : header ∈ headers) :
    stops (rawTokens (readable headers)) header.1.text = stops (rawTokens headers) header.1.text := by
  rw [Bool.eq_iff_iff, stops_iff, stops_iff]
  constructor
  · exact Or.imp_right (Or.imp_right isConnectionNamed_of_readable)
  · rintro (hhop | hmeta | hnamed)
    · exact .inl hhop
    · exact .inr (.inl hmeta)
    · exact h header hmem hnamed

/-- Proxy header filtering is the same on every face exactly if the text of the `Connection` values
names every field that their bytes name and that would otherwise be forwarded. -/
theorem filtersAlike_iff (req : Request) :
    FiltersAlike req ↔ NamedInText req.rawHeaders := by
  constructor
  · intro h header hmem hnamed
    by_contra hforwarded
    rw [← stops_iff] at hforwarded
    -- the buffered face does not see the name, and forwards the field
    refine h.buffered (header.1.text, textOf header.2) ?_ (stops_iff.mpr (.inr (.inr hnamed)))
    rw [bufferedForwarded_eq]
    exact List.mem_map.mpr ⟨header, List.mem_filter.mpr ⟨hmem, by simpa using hforwarded⟩, rfl⟩
  · intro h
    have hsame : bufferedForwarded req = streamingForwarded req.rawHeaders := by
      rw [bufferedForwarded_eq, streamingForwarded_eq]
      congr 1
      apply List.filter_congr
      intro header hmem
      rw [stops_readable h hmem]
    have hstreaming : ∀ header ∈ streamingForwarded req.rawHeaders,
        ¬ MustStop req.rawHeaders header.1 := by
      intro header hheader
      rw [streamingForwarded_eq] at hheader
      obtain ⟨field, hfield, rfl⟩ := List.mem_map.mp hheader
      simpa [MustStop] using (List.mem_filter.mp hfield).2
    refine ⟨?_, hstreaming, ?_, hsame⟩
    · rw [hsame]
      exact hstreaming
    · intro header hheader
      rw [forwardedOfferHeaders_eq] at hheader
      obtain ⟨hmem, hkept⟩ := List.mem_filter.mp hheader
      obtain ⟨field, hfield, rfl⟩ := List.mem_map.mp hmem
      rw [Bool.and_eq_true, Bool.not_eq_true'] at hkept
      obtain ⟨hhop, hmeta⟩ := not_stops_of_forwardable hkept.2
      rw [MustStop, ← stops_readable h hfield, stops_iff, hhop, hmeta, hkept.1]
      decide

def sampleDelegated : Request where
  method := .known .get
  uri := ⟨"/".toList, none, none⟩
  rawHeaders := [(⟨"connection".toList, by decide⟩, encode "x-secret, ".toList ++ [255]),
    (⟨"x-secret".toList, by decide⟩, encode "1".toList)]
  body := []
  params := none

/-- The streaming face drops the field the `Connection` value names; the buffered face and the offer
forward it. -/
theorem sampleDelegated_forwarded :
    streamingForwarded sampleDelegated.rawHeaders = [] ∧
      bufferedForwarded sampleDelegated = [("x-secret".toList, "1".toList)] ∧
      forwardedOfferHeaders sampleDelegated = [("x-secret".toList, "1".toList)] ∧
      ¬ FiltersAlike sampleDelegated := by
  have hbuffered : bufferedForwarded sampleDelegated = [("x-secret".toList, "1".toList)] := by
    decide +kernel
  have hstreaming : streamingForwarded sampleDelegated.rawHeaders = [] := by decide
  refine ⟨hstreaming, hbuffered, by decide +kernel, fun h => ?_⟩
  have hsame := h.same
  rw [hbuffered, hstreaming] at hsame
  cases hsame

end Camber.Proxy
