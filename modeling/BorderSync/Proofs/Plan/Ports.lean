/-
# BorderSync.Proofs.Plan.Ports -- one update for each port that takes part

The plan for a service that was seen follows its ports: each port whose name is the marker with something
after it, and which has a node port, asks for one update, and no other port asks for any. The name of the
port tells the upstream, the addresses and the node port tell the servers, and an annotation tells the client
type. All of these can be told apart again from the texts that are made of them.
-/
import BorderSync.Proofs.Border.Place
import BorderSync.Proofs.Plan
import BorderSync.Proofs.Text.Blank
import BorderSync.Proofs.Text.Cut
import Mathlib.Data.List.Forall2

namespace BorderSync

open Cluster Event

/-- **The port takes part**: its name is the marker with something after it, and it has a node port. -/
def Cluster.Port.TakesPart (p : Port) : Prop :=
  ∃ upstream nodePort, upstream ≠ "" ∧ p.name = some ("nlk-" ++ upstream) ∧ p.nodePort = some nodePort

namespace Plan

/-! ## Names of ports -/

/-- What follows the marker, put after it again, is the name. -/
theorem afterMarker?_eq_some_iff {portName upstream : String} :
    afterMarker? portName = some upstream ↔ portName = "nlk-" ++ upstream := by
  unfold afterMarker?
  rw [Option.map_eq_some_iff]
  constructor
  · rintro ⟨rest, hrest, rfl⟩
    rw [Text.stripLead?_eq_some_iff] at hrest
    have hback : (String.ofList rest).toList = rest := String.toList_ofList
    apply String.toList_injective
    rw [hrest, String.toList_append, hback]
    rfl
  · rintro rfl
    refine ⟨upstream.toList, ?_, String.ofList_toList⟩
    rw [Text.stripLead?_eq_some_iff, String.toList_append]
    rfl

/-- A name is marked if something follows the marker. -/
theorem isMarked_iff {portName : String} :
    isMarked portName = true ↔ ∃ upstream, upstream ≠ "" ∧ portName = "nlk-" ++ upstream := by
  unfold isMarked
  constructor
  · intro h
    split at h
    · exact absurd h (by simp)
    · rename_i rest hrest
      exact ⟨rest, bne_iff_ne.mp h, afterMarker?_eq_some_iff.mp hrest⟩
  · rintro ⟨upstream, hne, hname⟩
    rw [afterMarker?_eq_some_iff.mpr hname]
    exact bne_iff_ne.mpr hne

/-- The upstream of a name with the marker. -/
theorem upstreamOf_marked (upstream : String) : upstreamOf ("nlk-" ++ upstream) = upstream := by
  unfold upstreamOf
  rw [afterMarker?_eq_some_iff.mpr rfl]
  rfl

/-- Ports that take part are those with a marked name and a node port. -/
theorem takesPart_iff {p : Port} :
    p.TakesPart ↔ isMarkedPort p = true ∧ p.nodePort.isSome = true := by
  unfold isMarkedPort
  constructor
  · rintro ⟨upstream, nodePort, hne, hname, hport⟩
    rw [hname, hport]
    exact ⟨isMarked_iff.mpr ⟨upstream, hne, rfl⟩, rfl⟩
  · rintro ⟨hmarked, hport⟩
    obtain ⟨nodePort, hport⟩ := Option.isSome_iff_exists.mp hport
    cases hname : p.name with
    | none =>
      rw [hname] at hmarked
      exact absurd hmarked (by decide)
    | some name =>
      rw [hname] at hmarked
      obtain ⟨upstream, hne, rfl⟩ := isMarked_iff.mp hmarked
      exact ⟨upstream, nodePort, hne, hname, hport⟩

instance (p : Port) : Decidable p.TakesPart :=
  decidable_of_iff _ takesPart_iff.symm

/-! ## Servers -/

/-- **A server tells its address and its node port**: the address may hold colons, the node port holds none. -/
theorem serverText_inj {address address' : String} {nodePort nodePort' : Int}
    (h : serverText address nodePort = serverText address' nodePort') :
    address = address' ∧ nodePort = nodePort' := by
  have hcolon (n : Int) : ':' ∉ (toString n).toList := by
    intro hmem
    rcases Border.mem_toString_int hmem with hdigit | hminus
    · exact absurd hdigit (by decide)
    · exact absurd hminus (by decide)
  have hlist : address.toList ++ ':' :: (toString nodePort).toList
      = address'.toList ++ ':' :: (toString nodePort').toList := by
    simpa [serverText] using congrArg String.toList h
  obtain ⟨haddress, hport⟩ := Text.cut_last (hcolon nodePort) (hcolon nodePort') hlist
  refine ⟨String.toList_injective haddress, Int.repr_injective ?_⟩
  rw [← Int.toString_eq_repr, ← Int.toString_eq_repr]
  exact String.toList_injective hport

/-! ## Client types -/

/-- Without an annotation the port is one of HTTP. -/
theorem clientTypeOf_unannotated {portName : String} {annotations : List (String × String)}
    (h : annotations.lookup ("nginxinc.io/" ++ portName) = none) : clientTypeOf portName annotations = "http" := by
  have hkey : annotationKey portName = "nginxinc.io/" ++ portName := rfl
  unfold clientTypeOf
  rw [hkey, h]
  rfl

/-- An annotation is read without the white space around it and in lower case. -/
theorem clientTypeOf_annotated {portName value : String} {annotations : List (String × String)}
    (h : annotations.lookup ("nginxinc.io/" ++ portName) = some value) {core : List Char}
    (hcore : Text.Trimmed value.toList core) :
    (clientTypeOf portName annotations).toList = core.map Char.toLower := by
  have hkey : annotationKey portName = "nginxinc.io/" ++ portName := rfl
  unfold clientTypeOf
  rw [hkey, h]
  simp only [Text.lower, Text.trim, String.toList_ofList, ← hcore.eq_trimChars]
  exact List.map_congr_left fun c _ => Text.lowerAscii_eq_toLower c

/-! ## What a port asks for -/

/-- **What a port asks for** when a change is planned. -/
structure Asks (c : Change) (p : Port) (u : Update) : Prop where
  kind : u.kind = c.kind
  /-- The marker and the upstream are the name of the port. -/
  name : p.name = some ("nlk-" ++ u.upstream)
  upstream_ne : u.upstream ≠ ""
  /-- There is one server for each address, in their order. -/
  servers : ∀ nodePort, p.nodePort = some nodePort → u.servers = c.nodes.map fun a => serverText a nodePort
  unannotated : c.service.annotations.lookup ("nginxinc.io/" ++ ("nlk-" ++ u.upstream)) = none →
    u.clientType = "http"
  annotated : ∀ value core,
    c.service.annotations.lookup ("nginxinc.io/" ++ ("nlk-" ++ u.upstream)) = some value →
      Text.Trimmed value.toList core → u.clientType.toList = core.map Char.toLower
  /-- It goes to no border server yet. -/
  unaddressed : u.id = "" ∧ u.host = ""

/-- A port that takes part asks for one update. -/
theorem updateOf?_takesPart (c : Change) {p : Port} (h : p.TakesPart) :
    ∃ u, updateOf? c.kind c.service c.nodes p = some u ∧ Asks c p u := by
  obtain ⟨upstream, nodePort, hne, hname, hport⟩ := h
  have hmarked : isMarked ("nlk-" ++ upstream) = true := isMarked_iff.mpr ⟨upstream, hne, rfl⟩
  unfold updateOf?
  rw [hname, hport]
  simp only [hmarked, if_true, upstreamOf_marked]
  refine ⟨_, rfl, rfl, hname, hne, ?_, clientTypeOf_unannotated, ?_, rfl, rfl⟩
  · intro nodePort' hport'
    obtain rfl := Option.some.inj (hport.symm.trans hport')
    rfl
  · intro value core hvalue hcore
    exact clientTypeOf_annotated hvalue hcore

/-- Any other port asks for nothing. -/
theorem updateOf?_of_not_takesPart (c : Change) {p : Port} (h : ¬ p.TakesPart) :
    updateOf? c.kind c.service c.nodes p = none := by
  unfold updateOf?
  split
  · rename_i name nodePort hname hport
    split
    · rename_i hmarked
      obtain ⟨upstream, hne, rfl⟩ := isMarked_iff.mp hmarked
      exact absurd ⟨upstream, nodePort, hne, hname, hport⟩ h
    · rfl
  · rfl

/-- The ports that take part and the updates of a body, one by one. -/
theorem asks_updatesOf (c : Change) (ports : List Port) :
    List.Forall₂ (Asks c) (ports.filter fun p => p.TakesPart)
      (ports.filterMap (updateOf? c.kind c.service c.nodes)) := by
  induction ports with
  | nil => exact List.Forall₂.nil
  | cons p ports ih =>
    by_cases hp : p.TakesPart
    · obtain ⟨u, hu, hasks⟩ := updateOf?_takesPart c hp
      rw [List.filter_cons_of_pos (by simpa using hp), List.filterMap_cons_some hu]
      exact List.Forall₂.cons hasks ih
    · rw [List.filter_cons_of_neg (by simpa using hp),
        List.filterMap_cons_none (updateOf?_of_not_takesPart c hp)]
      exact ih

/-- What stands at the same place of both lists belongs together. -/
theorem asks_of_getElem? {c : Change} {ports : List Port} {us : List Update} (h : List.Forall₂ (Asks c) ports us)
    {i : Nat} {p : Port} {u : Update} (hp : ports[i]? = some p) (hu : us[i]? = some u) : Asks c p u := by
  obtain ⟨hi, rfl⟩ := List.getElem?_eq_some_iff.mp hp
  obtain ⟨hi', rfl⟩ := List.getElem?_eq_some_iff.mp hu
  exact (List.forall₂_iff_get.mp h).2 i hi hi'

/-! ## Plans -/

/-- **Translation of a service that was seen**: the plan for a change, given the cache. -/
structure Translated (cache : Cache) (c : Change) (p : Plan) : Prop where
  /-- The ports that take part ask for one update each, in their order; no other port asks for any. -/
  updates : List.Forall₂ (Asks c) (c.service.ports.filter fun q => q.TakesPart) p.updates
  /-- Updates are of one upstream only if their ports have one name. -/
  upstreams : ∀ (i j : Nat) q r u v,
    (c.service.ports.filter fun q => q.TakesPart)[i]? = some q → p.updates[i]? = some u →
    (c.service.ports.filter fun q => q.TakesPart)[j]? = some r → p.updates[j]? = some v →
      (u.upstream = v.upstream ↔ q.name = r.name)
  /-- A server is an address, a colon and a node port, and tells both. -/
  servers : ∀ address address' nodePort nodePort',
    serverText address nodePort = address ++ ":" ++ toString nodePort ∧
      (serverText address nodePort = serverText address' nodePort' →
        address = address' ∧ nodePort = nodePort')
  /-- The replaced body plays no part. -/
  previous : ∀ previous, ofChange cache { c with previous := previous } = .ok p
  /-- Neither does anything else but the kind, the ports, the annotations and the addresses. -/
  blind : ∀ cache' c' p', c'.kind = c.kind → c'.service.ports = c.service.ports →
    c'.service.annotations = c.service.annotations → c'.nodes = c.nodes →
      ofChange cache' c' = .ok p' → p'.updates = p.updates
  cache : p.cache = cache

/-- Of two ports that take part, the upstreams agree if the names do. -/
theorem Asks.upstream_eq_iff {c : Change} {q r : Port} {u v : Update} (hu : Asks c q u) (hv : Asks c r v) :
    u.upstream = v.upstream ↔ q.name = r.name := by
  rw [hu.name, hv.name, Option.some.injEq]
  constructor
  · intro h
    rw [h]
  · intro h
    rw [← upstreamOf_marked u.upstream, h, upstreamOf_marked]

/-- The updates of a body depend on its ports and annotations only. -/
theorem updatesOf_congr {s s' : Service} (hports : s'.ports = s.ports)
    (hannotations : s'.annotations = s.annotations) (kind : Kind) (nodes : List String) :
    updatesOf kind s' nodes = updatesOf kind s nodes := by
  unfold updatesOf updateOf?
  rw [hports, hannotations]

/-- **Every change of a named service that is no deletion has a plan**, which follows the ports of the
service. -/
theorem ofChange_translates (cache : Cache) (c : Change) (hkind : c.kind ≠ .deleted)
    (hname : c.service.name.isSome = true) : ∃ p, ofChange cache c = .ok p ∧ Translated cache c p := by
  obtain ⟨k, hk⟩ : ∃ k, Key.ofService? c.service = some k := by
    obtain ⟨name, hname⟩ := Option.isSome_iff_exists.mp hname
    exact ⟨⟨c.service.space, name⟩, by rw [Key.ofService?, hname, Option.map_some]⟩
  have hasks : List.Forall₂ (Asks c) (c.service.ports.filter fun q => q.TakesPart)
      (updatesOf c.kind c.service c.nodes) := asks_updatesOf c c.service.ports
  refine ⟨_, ofChange_body cache hkind hk, hasks, ?_, ?_, ?_, ?_, rfl⟩
  · intro i j q r u v hq hu hr hv
    exact (asks_of_getElem? hasks hq hu).upstream_eq_iff (asks_of_getElem? hasks hr hv)
  · intro address address' nodePort nodePort'
    exact ⟨rfl, serverText_inj⟩
  · intro previous
    exact ofChange_body cache (c := { c with previous := previous }) hkind hk
  · intro cache' c' p' hkind' hports hannotations hnodes hplan
    rw [updates_of_body (hkind' ▸ hkind) hplan, hkind', hnodes]
    exact updatesOf_congr hports hannotations c.kind c.nodes

/-- A sight of a service with five ports, seen with three addresses, one of which holds colons. -/
def teaChange : Change where
  kind := .updated
  service := {
    name := some "tea"
    namespaceName := some "default"
    annotations := [("nginxinc.io/nlk-tea", " Stream\u00a0\t"), ("nginxinc.io/tea", "stream")]
    ports := [⟨some "nlk-tea", some 30080⟩, ⟨some "tea", some 30081⟩, ⟨some "nlk-", some 30082⟩,
      ⟨some "nlk-nlk-tea", some 30083⟩, ⟨some "nlk-late", none⟩] }
  previous := some {}
  nodes := ["10.0.0.1", "fd00::1", "10.0.0.1"]

/-- Two of the five ports take part. The name of the second one has the marker twice. -/
theorem ofChange_translates_tea : ∃ p, ofChange .empty teaChange = .ok p ∧ Translated .empty teaChange p ∧
    p.updates = [
      { kind := .updated, upstream := "tea", clientType := "stream",
        servers := ["10.0.0.1:30080", "fd00::1:30080", "10.0.0.1:30080"] },
      { kind := .updated, upstream := "nlk-tea", clientType := "http",
        servers := ["10.0.0.1:30083", "fd00::1:30083", "10.0.0.1:30083"] }] := by
  obtain ⟨p, hp, hplan⟩ := ofChange_translates .empty teaChange (by decide) rfl
  refine ⟨p, hp, hplan, ?_⟩
  rw [updates_of_body (by decide) hp]
  decide +kernel

end Plan

end BorderSync
