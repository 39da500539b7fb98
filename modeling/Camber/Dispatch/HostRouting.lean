import Camber.Dispatch.Freeze

/-! Registration lower-cases the host names and freezing sorts them; a lookup lower-cases the
authority without its port and searches the sorted names. -/

namespace Camber.Dispatch

open Str Policy HostRouter

variable {C : Type}

namespace HostRouter

def add (host : Text) (router : Router C) (hosts : HostRouter C) : HostRouter C :=
  { hosts with hosts := hosts.hosts ++ [(host.map Char.toLower, router)] }

def addAll (named : List (Text × Router C)) (hosts : HostRouter C) : HostRouter C :=
  named.foldl (fun hosts child => hosts.add child.1 child.2) hosts

end HostRouter

def FrozenHostRouter.routerFor (parsesAuthority : Text → Bool) (router : FrozenHostRouter C)
    (authority : Text) : Option (FrozenRouter C) :=
  if isValidHost parsesAuthority authority then router.claimingRouter authority else none

inductive HostOf : Text → Text → Prop
  | name {host : Text} (h : ':' ∉ host) (hopen : host.head? ≠ some '[') : HostOf host host
  | namePort {host port : Text} (h : ':' ∉ host) (hopen : host.head? ≠ some '[')
      (hport : parsesU16 port = true) : HostOf (host ++ ':' :: port) host
  | literal {inside : Text} (h : ']' ∉ inside) :
      HostOf ('[' :: inside ++ [']']) ('[' :: inside ++ [']'])
  | literalPort {inside port : Text} (h : ']' ∉ inside) (hport : parsesU16 port = true) :
      HostOf ('[' :: inside ++ ']' :: ':' :: port) ('[' :: inside ++ [']'])

theorem colon_notMem_of_parsesU16 {port : Text} (h : parsesU16 port = true) : ':' ∉ port := by
  intro hmem
  unfold parsesU16 at h
  simp only [Bool.and_eq_true, List.all_eq_true] at h
  cases port with
  | nil => cases hmem
  | cons c rest =>
    have hrest : ':' ∈ (stripPrefixChar '+' (c :: rest)).getD (c :: rest) := by
      rw [stripPrefixChar]
      split
      next hc =>
        rcases List.mem_cons.mp hmem with hc' | hmem
        · rw [hc] at hc'
          exact absurd hc' (by decide)
        · exact hmem
      next => exact hmem
    exact absurd (h.1.2 ':' hrest) (by decide)

variable {authority : Text}

theorem stripHostPort_of_hostOf {host : Text} (h : HostOf authority host) :
    stripHostPort authority = host := by
  have hname : ∀ {text : Text}, text.head? ≠ some '[' → stripPrefixChar '[' text = none := by
    intro text htext
    cases text with
    | nil => rfl
    | cons c rest =>
      rw [stripPrefixChar, if_neg]
      rintro rfl
      exact htext rfl
  unfold stripHostPort
  cases h with
  | name hcolon hopen =>
    rw [hname hopen]
    unfold beforeLast
    simp only
    rw [splitOnce_eq_none (by simpa using hcolon)]
  | @namePort _ port hcolon hopen hport =>
    have hport' : ':' ∉ port.reverse := by simpa using colon_notMem_of_parsesU16 hport
    have hopen' : (host ++ ':' :: port).head? ≠ some '[' := by
      cases host with
      | nil => simp
      | cons c rest => exact hopen
    rw [hname hopen']
    unfold beforeLast
    simp only
    rw [List.reverse_append, List.reverse_cons, List.append_assoc, List.singleton_append,
      splitOnce_append hport']
    simp
  | @literal inside hclose =>
    have hclose' : ']' ∉ '[' :: inside := by simp [hclose]
    rw [splitOnce_append hclose']
    rfl
  | @literalPort inside port hclose hport =>
    have hclose' : ']' ∉ '[' :: inside := by simp [hclose]
    rw [splitOnce_append hclose']
    rfl

theorem exists_hostOf (h : hasValidAuthorityPort authority = true) :
    ∃ host, HostOf authority host := by
  unfold hasValidAuthorityPort at h
  split at h
  next bracketed hbracket =>
    obtain rfl := eq_of_stripPrefixChar hbracket
    unfold hasValidBracketedPort at h
    rcases splitOnce_cases ']' bracketed with ⟨_, hsplit⟩ | ⟨inside, suffix, rfl, hclose, hsplit⟩
    · rw [hsplit] at h
      cases h
    · rw [hsplit] at h
      simp only [Bool.or_eq_true] at h
      rcases h with hempty | hport
      · obtain rfl := List.isEmpty_iff.mp hempty
        exact ⟨_, .literal hclose⟩
      · obtain ⟨port, hstrip, hport⟩ := (Option.any_eq_true _ _).mp hport
        obtain rfl := eq_of_stripPrefixChar hstrip
        exact ⟨_, .literalPort hclose hport⟩
  next hnone =>
    have hopen : authority.head? ≠ some '[' := by
      intro hhead
      cases authority with
      | nil => cases hhead
      | cons c rest =>
        obtain rfl := Option.some.inj hhead
        simp [stripPrefixChar] at hnone
    unfold hasValidNamedPort at h
    rcases splitOnce_cases ':' authority with ⟨hcolon, _⟩ | ⟨host, port, rfl, hcolon, hsplit⟩
    · exact ⟨authority, .name hcolon hopen⟩
    · rw [hsplit] at h
      simp only [Bool.and_eq_true, Bool.not_eq_true'] at h
      obtain ⟨⟨hhost, _⟩, hport⟩ := h
      refine ⟨host, .namePort hcolon ?_ hport⟩
      cases host with
      | nil => cases hhost
      | cons c rest => exact hopen

theorem existsUnique_hostOf {parsesAuthority : Text → Bool}
    (h : isValidHost parsesAuthority authority = true) : ∃! host, HostOf authority host := by
  unfold isValidHost at h
  obtain ⟨host, hhost⟩ := exists_hostOf (Bool.and_eq_true_iff.mp h).2
  refine ⟨host, hhost, fun other hother => ?_⟩
  rw [← stripHostPort_of_hostOf hother, stripHostPort_of_hostOf hhost]

theorem hosts_addAll (named : List (Text × Router C)) (hosts : HostRouter C) :
    (hosts.addAll named).hosts =
      hosts.hosts ++ named.map fun child => (child.1.map Char.toLower, child.2) := by
  induction named generalizing hosts with
  | nil => simp [HostRouter.addAll]
  | cons child named ih =>
    have hstep : hosts.addAll (child :: named) = (hosts.add child.1 child.2).addAll named := rfl
    rw [hstep, ih]
    simp [HostRouter.add]

theorem default_addAll (named : List (Text × Router C)) (hosts : HostRouter C) :
    (hosts.addAll named).default = hosts.default := by
  induction named generalizing hosts with
  | nil => rfl
  | cons child named ih =>
    have hstep : hosts.addAll (child :: named) = (hosts.add child.1 child.2).addAll named := rfl
    rw [hstep, ih]
    rfl

def HostRouter.selected (hosts : HostRouter C) (outer : Located RouteBudgets) (cap : PolicyBound ℕ)
    (name : Text) : Option (FrozenRouter C) :=
  ((hosts.hosts.find? fun child => child.1 = name).map fun child =>
      child.2.frozen (hosts.envelope outer cap (some child.1))).or
    (hosts.default.map fun router => router.frozen (hosts.envelope outer cap none))

theorem claimingRouter_freeze {hosts : HostRouter C} (outer : Located RouteBudgets)
    (cap : PolicyBound ℕ) (hdistinct : (hosts.hosts.map Prod.fst).Nodup) {host : Text}
    (hhost : HostOf authority host) :
    (hosts.freeze outer cap).1.claimingRouter authority =
      hosts.selected outer cap (host.map Char.toLower) := by
  have hchildren : (hosts.freeze outer cap).1.hosts =
      (hosts.hosts.insertionSort fun a b => a.1 ≤ b.1).map fun child =>
        (child.1, child.2.frozen (hosts.envelope outer cap (some child.1))) := by
    simp [freeze, freezeHosts, Router.freeze]
  have hsorted := SortedMap.strictKeys_insertionSort hdistinct
  have hstrict : SortedMap.StrictKeys (hosts.freeze outer cap).1.hosts := by
    rw [hchildren]
    exact List.pairwise_map.mpr hsorted
  have hperm := List.perm_insertionSort (fun a b : Text × Router C => a.1 ≤ b.1) hosts.hosts
  have hlookup : (hosts.freeze outer cap).1.hosts.lookup (host.map Char.toLower) =
      (hosts.hosts.find? fun child => child.1 = host.map Char.toLower).map fun child =>
        child.2.frozen (hosts.envelope outer cap (some child.1)) := by
    rw [hchildren, SortedMap.find?_perm hperm.symm hdistinct]
    exact SortedMap.lookup_map _ _ _
  have hdefault : (hosts.freeze outer cap).1.default =
      hosts.default.map fun router => router.frozen (hosts.envelope outer cap none) := by
    simp [freeze, Router.freeze, Function.comp_def]
  unfold FrozenHostRouter.claimingRouter selected lowercaseHostname
  simp only
  rw [SortedMap.binarySearch_lookup hstrict, stripHostPort_of_hostOf hhost, hlookup, hdefault]

theorem envelope_addAll (named : List (Text × Router C)) (hosts : HostRouter C)
    (outer : Located RouteBudgets) (cap : PolicyBound ℕ) :
    (hosts.addAll named).envelope outer cap = hosts.envelope outer cap := by
  induction named generalizing hosts with
  | nil => rfl
  | cons child named ih =>
    have hstep : hosts.addAll (child :: named) = (hosts.add child.1 child.2).addAll named := rfl
    rw [hstep, ih]
    rfl

def registered (named : List (Text × Router C)) (base : HostRouter C)
    (outer : Located RouteBudgets) (cap : PolicyBound ℕ) (host : Text) :
    Option (FrozenRouter C) :=
  ((named.find? fun child => child.1.map Char.toLower = host.map Char.toLower).map fun child =>
      child.2.frozen (base.envelope outer cap (some (child.1.map Char.toLower)))).or
    (base.default.map fun router => router.frozen (base.envelope outer cap none))

theorem selected_addAll {named : List (Text × Router C)} {base : HostRouter C}
    (hbase : base.hosts = []) (outer : Located RouteBudgets) (cap : PolicyBound ℕ) (host : Text) :
    (base.addAll named).selected outer cap (host.map Char.toLower) =
      registered named base outer cap host := by
  unfold selected registered
  rw [hosts_addAll, default_addAll, envelope_addAll, hbase, List.nil_append, List.find?_map,
    Option.map_map]
  rfl

/-- A host router resolves an authority exactly when it is valid, to the router registered under its
host, and selects the same router for a stage that answers without it. -/
theorem host_routing (parsesAuthority : Text → Bool) (base : HostRouter C) (hbase : base.hosts = [])
    (named : List (Text × Router C))
    (hdistinct : (named.map fun child => child.1.map Char.toLower).Nodup)
    (outer : Located RouteBudgets) (cap : PolicyBound ℕ) (authority : Text) :
    (isValidHost parsesAuthority authority = false →
      ((base.addAll named).freeze outer cap).1.resolveHost parsesAuthority authority =
          .error (.invalidHost authority) ∧
        ((base.addAll named).freeze outer cap).1.routerFor parsesAuthority authority = none) ∧
    (isValidHost parsesAuthority authority = true →
      ∃! host, HostOf authority host ∧
        ((base.addAll named).freeze outer cap).1.resolveHost parsesAuthority authority =
          .ok (registered named base outer cap host) ∧
        ((base.addAll named).freeze outer cap).1.routerFor parsesAuthority authority =
          registered named base outer cap host) := by
  unfold FrozenHostRouter.resolveHost FrozenHostRouter.routerFor
  constructor
  · intro hinvalid
    rw [hinvalid]
    exact ⟨rfl, rfl⟩
  · intro hvalid
    obtain ⟨host, hhost, hunique⟩ := existsUnique_hostOf hvalid
    have hnames : ((base.addAll named).hosts.map Prod.fst).Nodup := by
      rw [hosts_addAll, hbase, List.nil_append, List.map_map]
      exact hdistinct
    have hclaims : ((base.addAll named).freeze outer cap).1.claimingRouter authority =
        registered named base outer cap host := by
      rw [claimingRouter_freeze outer cap hnames hhost, selected_addAll hbase]
    rw [hvalid, if_pos rfl, if_pos rfl, hclaims]
    exact ⟨host, ⟨hhost, rfl, rfl⟩, fun other hother => hunique other hother.1⟩

def sampleRouter (mapper : ℕ) : Router ℕ where
  registrations := []
  budgets := ⟨.default, RouteBudgets.unset_default⟩
  bodyCeiling := .unset
  middleware := []
  mapper := some mapper
  bodyPolicy := none
  configured := by simp

def sampleHosts : HostRouter ℕ where
  hosts := []
  default := some (sampleRouter 0)
  mapper := none
  bodyCeiling := .unset
  budgets := ⟨.default, RouteBudgets.unset_default⟩

def sampleNamed : List (Text × Router ℕ) :=
  [("Example.com".toList, sampleRouter 1), ("[::1]".toList, sampleRouter 2)]

def sampleOuter : Located RouteBudgets := RouteBudgets.default.located .server

def sampleCap : PolicyBound ℕ := ⟨1024, .one .server true⟩

/-- An address in brackets with a port selects the router registered under the address. -/
theorem host_routing_sampleNamed :
    (sampleNamed.map fun child => child.1.map Char.toLower).Nodup ∧
      isValidHost (fun _ => true) "[::1]:+80".toList = true ∧
      ∃! host, HostOf "[::1]:+80".toList host ∧
        ((sampleHosts.addAll sampleNamed).freeze sampleOuter sampleCap).1.resolveHost
            (fun _ => true) "[::1]:+80".toList =
          .ok (registered sampleNamed sampleHosts sampleOuter sampleCap host) ∧
        ((sampleHosts.addAll sampleNamed).freeze sampleOuter sampleCap).1.routerFor
            (fun _ => true) "[::1]:+80".toList =
          registered sampleNamed sampleHosts sampleOuter sampleCap host := by
  have hdistinct : (sampleNamed.map fun child => child.1.map Char.toLower).Nodup := by
    decide
  have hvalid : isValidHost (fun _ => true) "[::1]:+80".toList = true := by decide
  have hrouting := host_routing (fun _ => true) sampleHosts rfl sampleNamed hdistinct sampleOuter
    sampleCap "[::1]:+80".toList
  exact ⟨hdistinct, hvalid, hrouting.2 hvalid⟩

end Camber.Dispatch
