import Camber.Client.Operation

/-! What a hop does to the headers of a request, and what follows for every send of a call. -/

namespace Camber.Client

open Str

namespace Description

variable {d : Description} {destination : Destination} {carried : Carried} {name : Text}

@[simp] theorem follow_url (d : Description) (destination : Destination) (carried : Carried) :
    (d.follow destination carried).url = destination.url := by
  cases carried <;> rfl

theorem getAll_follow_eq (d : Description) (destination : Destination) (carried : Carried)
    (name : Text) :
    (d.follow destination carried).headers.getAll name =
      if (carried ≠ .whole ∧ name = contentType) ∨
          (destination.newOrigin ∧ name ∈ sensitiveNames d.headers) then []
      else d.headers.getAll name := by
  have hstrip : ((if destination.newOrigin then d.stripCredentials else d).retarget
      destination.url).headers.getAll name =
        if destination.newOrigin ∧ name ∈ sensitiveNames d.headers then []
        else d.headers.getAll name := by
    by_cases hnew : destination.newOrigin
    · simp only [hnew, if_true, true_and]
      exact getAll_stripCredentials d name
    · simp only [hnew, if_false, false_and, Bool.false_eq_true]
      rfl
  cases carried with
  | whole => exact hstrip.trans (by simp)
  | bodiless method =>
    refine Eq.trans (HeaderMap.getAll_remove _ contentType name) ?_
    rw [hstrip]
    by_cases hname : name = contentType
    · simp [hname]
    · simp [hname]

theorem getAll_follow (d : Description) (destination : Destination) (carried : Carried)
    (name : Text) :
    (d.follow destination carried).headers.getAll name = d.headers.getAll name ∨
      (d.follow destination carried).headers.getAll name = [] := by
  rw [getAll_follow_eq]
  split_ifs
  · exact .inr rfl
  · exact .inl rfl

theorem getAll_follow_of_not_credential (hname : ¬ d.Credential name) (hne : name ≠ contentType) :
    (d.follow destination carried).headers.getAll name = d.headers.getAll name := by
  rw [getAll_follow_eq, if_neg]
  rintro (⟨_, heq⟩ | ⟨_, hmem⟩)
  · exact hne heq
  · exact hname (credential_of_mem_sensitiveNames hmem)

theorem getAll_follow_of_newOrigin (hnew : destination.newOrigin) (hname : d.Credential name) :
    (d.follow destination carried).headers.getAll name = [] := by
  rw [getAll_follow_eq]
  split_ifs with h
  · rfl
  · by_contra hne
    exact h (.inr ⟨hnew, mem_sensitiveNames_of_credential hname hne⟩)

end Description

section Chain

variable {policy : RedirectPolicy} {initial : Url} {d d' first : Description}

def Permitted (policy : RedirectPolicy) (initial url : Url) : Prop :=
  sameOrigin initial url ∨ policy.AdmitsOrigin url

theorem Advance.permitted (h : Advance policy initial d d') (hd : Permitted policy initial d.url) :
    Permitted policy initial d'.url := by
  cases h with
  | again => exact hd
  | hop destination carried hadmits _ =>
    rw [Description.follow_url]
    exact RedirectPolicy.admits_origin hadmits

theorem Advance.https (h : Advance policy initial d d')
    (hd : Permitted policy initial d.url ∧ d.url.val.scheme = https) :
    Permitted policy initial d'.url ∧ d'.url.val.scheme = https := by
  refine ⟨h.permitted hd.1, ?_⟩
  cases h with
  | again => exact hd.2
  | hop destination carried hadmits _ =>
    rw [Description.follow_url]
    exact (isSendable_scheme destination.url.property).resolve_left
      (RedirectPolicy.admits_scheme hd.1 hadmits hd.2)

def Inherits (first d : Description) : Prop :=
  ∀ name, d.headers.getAll name = first.headers.getAll name ∨ d.headers.getAll name = []

def Stripped (first d : Description) : Prop :=
  ∀ name, first.Credential name → d.headers.getAll name = []

def Untouched (first d : Description) : Prop :=
  ∀ name, ¬ first.Credential name → name ≠ contentType →
    d.headers.getAll name = first.headers.getAll name

section

variable (h : Advance policy initial d d')

include h

theorem Advance.inherits (hd : Inherits first d) : Inherits first d' := by
  intro name
  cases h with
  | again => exact hd name
  | hop destination carried _ _ =>
    rcases Description.getAll_follow d destination carried name with h | h
    · rw [h]
      exact hd name
    · exact .inr h

theorem Advance.stripped (hd : Stripped first d) : Stripped first d' := by
  intro name hname
  cases h with
  | again => exact hd name hname
  | hop destination carried _ _ =>
    rcases Description.getAll_follow d destination carried name with h | h
    · exact h.trans (hd name hname)
    · exact h

theorem Advance.untouched (hd : Untouched first d) : Untouched first d' := by
  intro name hname hne
  cases h with
  | again => exact hd name hname hne
  | hop destination carried _ _ =>
    have hsame := hd name hname hne
    have hname' : ¬ d.Credential name := by
      rintro (halways | ⟨header, hheader, hs⟩)
      · exact hname (.inl halways)
      · exact hname (.inr ⟨header, hsame ▸ hheader, hs⟩)
    exact (Description.getAll_follow_of_not_credential hname' hne).trans hsame

theorem Advance.strips (hd : Inherits first d) (hchange : sameOrigin d.url d'.url = false) :
    Stripped first d' := by
  cases h with
  | again => exact absurd (sameOrigin_self d.url) (by simp [hchange])
  | hop destination carried _ horigin =>
    have hnew : destination.newOrigin := by
      rw [Description.follow_url] at hchange
      rw [horigin, hchange]
      rfl
    intro name hname
    rcases hd name with hsame | hgone
    · -- the marked value is still there, so this request's own sensitivity removes it
      have hname' : d.Credential name := by
        rcases hname with halways | ⟨header, hheader, hs⟩
        · exact .inl halways
        · exact .inr ⟨header, hsame ▸ hheader, hs⟩
      exact Description.getAll_follow_of_newOrigin hnew hname'
    · rcases Description.getAll_follow d destination carried name with h | h
      · exact h.trans hgone
      · exact h

end

theorem Stripped.carries (h : Stripped first d) {name : Text} (hname : first.Credential name) :
    d.send.carries name = false := by
  have hnone := HeaderMap.getAll_eq_nil_iff.mp (h name hname)
  obtain ⟨huser, hpassword⟩ := isSendable_credentials d.url.property
  simp only [Send.carries, Description.send, huser, hpassword, Bool.and_self, Bool.not_true,
    Bool.and_false, Bool.or_false, List.any_eq_false, decide_eq_true_eq]
  exact hnone

end Chain

/-- Over every call: each send goes to the initial origin or to one the policy admits, no send over
HTTP follows one over HTTPS, no send after the first change of origin carries a credential or a
header marked when the call began, and every header that is neither of those nor the content type is
the same on every send. -/
theorem run_origins_credentials (parse : UrlParser) (policy : OperationPolicy)
    (description : Description) (turns : List Turn) :
    let sends := ((Operation.new description policy).run parse turns).1
    (∀ send ∈ sends, sameOrigin description.url send.url ∨
      policy.redirect.AdmitsOrigin send.url) ∧
    (∀ (i j : ℕ) (a b : Send), i < j → sends[i]? = some a → sends[j]? = some b →
      a.url.scheme = https → b.url.scheme ≠ http) ∧
    (∀ (i j : ℕ) (a b c : Send), i < j → sends[i]? = some a → sends[i + 1]? = some b →
      sameOrigin a.url b.url = false → sends[j]? = some c →
      ∀ name, description.Credential name → c.carries name = false) ∧
    (∀ send ∈ sends, ∀ name, ¬ description.Credential name → name ≠ contentType →
      send.headers.getAll name = description.headers.getAll name) := by
  intro sends
  obtain ⟨requests, hsends, hchain, hhead⟩ :=
    Operation.run_sends parse (Operation.new description policy) turns
  have hget : ∀ {i : ℕ} {send : Send}, sends[i]? = some send →
      ∃ d, requests[i]? = some d ∧ d.send = send := by
    intro i send h
    rw [show sends = requests.map Description.send from hsends, List.getElem?_map] at h
    exact Option.map_eq_some_iff.mp h
  have hmem : ∀ {send : Send}, send ∈ sends → ∃ d ∈ requests, d.send = send := by
    intro send h
    rw [show sends = requests.map Description.send from hsends] at h
    exact List.mem_map.mp h
  have hstart : ∀ P : Description → Prop, P description → ∀ d ∈ requests.head?, P d :=
    fun P hP d hd => hhead d hd ▸ hP
  have hpermitted : ∀ d ∈ requests, Permitted policy.redirect description.url d.url := by
    intro d hd
    exact Trace.forall_mem hchain (hstart _ (.inl (sameOrigin_self description.url)))
      (fun _ _ h => h.permitted) hd
  refine ⟨?_, ?_, ?_, ?_⟩
  · intro send hsend
    obtain ⟨d, hd, rfl⟩ := hmem hsend
    exact hpermitted d hd
  · intro i j a b hij ha hb hs
    obtain ⟨d, hd, rfl⟩ := hget ha
    obtain ⟨d', hd', rfl⟩ := hget hb
    have hlast := Trace.persists hchain (fun _ _ h => h.https) (Nat.le_of_lt hij) hd
      ⟨hpermitted d (List.mem_of_getElem? hd), hs⟩ hd'
    intro hhttp
    exact absurd (hlast.2.symm.trans hhttp) (by decide)
  · intro i j a b c hij ha hb hchange hc name hname
    obtain ⟨d, hd, rfl⟩ := hget ha
    obtain ⟨d', hd', rfl⟩ := hget hb
    obtain ⟨d'', hd'', rfl⟩ := hget hc
    have hinherits : Inherits description d :=
      Trace.forall_mem hchain (hstart (Inherits description) fun _ => .inl rfl)
        (fun _ _ h => h.inherits) (List.mem_of_getElem? hd)
    have hstripped : Stripped description d' :=
      (Trace.rel_of_getElem? hchain hd hd').strips hinherits hchange
    exact (Trace.persists hchain (fun _ _ h => h.stripped) hij hd' hstripped hd'').carries hname
  · intro send hsend name hname hne
    obtain ⟨d, hd, rfl⟩ := hmem hsend
    exact Trace.forall_mem hchain (hstart (Untouched description) fun _ _ _ => rfl)
      (fun _ _ h => h.untouched) hd name hname hne

end Camber.Client
