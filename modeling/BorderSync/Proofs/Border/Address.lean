/-
# BorderSync.Proofs.Border.Address -- which place a call addresses

The place of a call is below its endpoint. All that is added to the path are a few fixed segments, the context,
the upstream and the number of an entry, in this order. Each of them can be read back from the path, and so
calls about different things address different places. There is one exception: the name of an upstream that a
path does not take as it is shares its place with another name.
-/
import BorderSync.Proofs.Border.Place
import Mathlib.Data.List.Basic

namespace BorderSync

open Endpoint (Location)

/-! ## Texts of places -/

namespace Endpoint.Location

/-- **The own segments** of a path. An empty last one does not count, and a single empty one is a path without
segments. -/
def own (segments : List String) : List String :=
  if dropEmptyLast segments = [""] then [] else dropEmptyLast segments

/-- Segments without slashes can be read from the text that joins them. -/
theorem intercalate_inj {xs ys : List String} (hxs : xs ≠ []) (hys : ys ≠ []) (hplain : ∀ s ∈ xs, '/' ∉ s.toList)
    (hplain' : ∀ s ∈ ys, '/' ∉ s.toList) (h : "/".intercalate xs = "/".intercalate ys) : xs = ys := by
  have hread : ∀ {zs : List String}, zs ≠ [] → (∀ s ∈ zs, '/' ∉ s.toList) →
      List.splitOn '/' ("/".intercalate zs).toList = zs.map String.toList := by
    intro zs hzs hzs'
    have hpieces : ∀ piece ∈ zs.map String.toList, '/' ∉ piece := by
      intro piece hpiece
      obtain ⟨s, hs, rfl⟩ := List.mem_map.mp hpiece
      exact hzs' s hs
    rw [String.toList_intercalate]
    exact List.splitOn_intercalate '/' hpieces (by simpa using hzs)
  have hlists : xs.map String.toList = ys.map String.toList := by
    rw [← hread hxs hplain, ← hread hys hplain', h]
  exact (List.map_inj_right fun _ _ => String.toList_injective).mp hlists

/-- **Places that go on differently have different texts**, if what they add has no slashes. -/
theorem text_inj {l : Location} {before xs ys : List String} (hxs : xs ≠ []) (hys : ys ≠ [])
    (hplain : ∀ s ∈ xs, '/' ∉ s.toList) (hplain' : ∀ s ∈ ys, '/' ∉ s.toList)
    (h : text { l with segments := before ++ xs } = text { l with segments := before ++ ys }) : xs = ys := by
  have hpath : "/".intercalate (before ++ xs) = "/".intercalate (before ++ ys) := by
    have hlist := congrArg String.toList h
    have hxs' : before ++ xs ≠ [] := List.append_ne_nil_of_right_ne_nil before hxs
    have hys' : before ++ ys ≠ [] := List.append_ne_nil_of_right_ne_nil before hys
    simp only [text, site, target, path, authority, if_neg hxs', if_neg hys', String.toList_append,
      List.append_assoc, List.append_cancel_left_eq, List.append_cancel_right_eq] at hlist
    exact String.toList_injective hlist
  refine intercalate_inj hxs hys hplain hplain' ?_
  by_cases hbefore : before = []
  · rw [hbefore, List.nil_append, List.nil_append] at hpath
    exact hpath
  · rw [String.intercalate_append_of_ne_nil hbefore hxs, String.intercalate_append_of_ne_nil hbefore hys,
      String.append_right_inj] at hpath
    exact hpath

/-- A text that no path takes as it is shares its segments with another one. -/
theorem addSegment_shared {raw : String} (hraw : ¬ IsSteady raw) : ∃ other, other ≠ raw ∧
    ∀ web segments, segments ≠ [""] → addSegment web segments other = addSegment web segments raw := by
  by_cases hdots : raw = "." ∨ raw = ".."
  · -- both dot segments add nothing
    obtain ⟨other, hne, hother⟩ : ∃ other, other ≠ raw ∧ (other = "." ∨ other = "..") := by
      rcases hdots with rfl | rfl
      · exact ⟨"..", by decide, .inr rfl⟩
      · exact ⟨".", by decide, .inl rfl⟩
    refine ⟨other, hne, ?_⟩
    intro web segments _
    unfold addSegment
    rw [if_pos hdots, if_pos hother]
  · -- one more line break changes nothing
    obtain ⟨hone, htwo⟩ := not_or.mp hdots
    have hbreak : ¬ ∀ c ∈ raw.toList, c ≠ '\t' ∧ c ≠ '\n' ∧ c ≠ '\r' := fun h => hraw ⟨hone, htwo, h⟩
    have hlonger : (raw ++ "\n").toList = raw.toList ++ ['\n'] := String.toList_append
    have hkept : kept (raw ++ "\n") = kept raw := by
      unfold kept
      rw [hlonger, List.filter_append]
      exact List.append_nil _
    have hlast : ∀ text : String, text.toList.getLast? ≠ some '\n' → raw ++ "\n" ≠ text := by
      rintro _ htext rfl
      rw [hlonger, List.getLast?_concat] at htext
      exact htext rfl
    refine ⟨raw ++ "\n", ?_, ?_⟩
    · intro heq
      have hlength := congrArg (fun s => s.toList.length) heq
      simp only [hlonger, List.length_append, List.length_singleton] at hlength
      omega
    · intro web segments hsegments
      rw [addSegment_eq hsegments (hlast "." (by decide)) (hlast ".." (by decide)),
        addSegment_eq hsegments hone htwo, hkept]

end Endpoint.Location

namespace Border

/-! ## Segments of a call -/

/-- What a call is about: the version of the interface, the context, the upstream and the number of an entry. -/
def about (context : Context) (upstream : String) (id : Option Int) : List String :=
  "8" :: context.text :: "upstreams" :: upstream :: "servers" :: (id.map toString).toList

/-- Different calls are about different things. -/
theorem about_inj {context context' : Context} {upstream upstream' : String} {id id' : Option Int}
    (h : about context upstream id = about context' upstream' id') :
    context = context' ∧ upstream = upstream' ∧ id = id' := by
  simp only [about, List.cons.injEq, true_and] at h
  obtain ⟨hcontext, hupstream, hid⟩ := h
  refine ⟨?_, hupstream, ?_⟩
  · cases context <;> cases context' <;> first | rfl | exact absurd hcontext (by decide)
  · have htext : id.map toString = id'.map toString := by
      cases id <;> cases id' <;> simp_all
    have hinj : Function.Injective (toString : Int → String) := by
      intro i j hij
      rw [Int.toString_eq_repr, Int.toString_eq_repr] at hij
      exact Int.repr_injective hij
    exact Option.map_injective hinj htext

/-- What comes after the upstream. -/
def tail (id : Option Int) : List String :=
  "servers" :: (id.map toString).toList

/-- What comes after the upstream is taken as it is. -/
theorem steady_tail (id : Option Int) :
    ∀ raw ∈ tail id, Location.IsSteady raw ∧ ∀ web, Location.escaped web raw = raw := by
  intro raw hraw
  rcases List.mem_cons.mp hraw with rfl | hraw
  · decide
  · obtain ⟨i, -, rfl⟩ := Option.map_eq_some_iff.mp (Option.mem_toList.mp hraw)
    exact ⟨steady_number i, fun _ => escaped_number i⟩

/-- The context is taken as it is. -/
theorem steady_context (context : Context) :
    Location.IsSteady context.text ∧ ∀ web, Location.escaped web context.text = context.text := by
  cases context <;> decide

/-- **The path of a call** goes on with fixed segments, whatever the upstream is. -/
theorem segments_below (l : Location) (context : Context) (upstream : String) (id : Option Int) :
    (l.below (Client.serverSegments context upstream id)).segments = Location.own l.segments ++
      (["8", context.text] ++ Location.addSegment l.isWeb ["upstreams"] upstream ++ tail id) := by
  have hlone : ∀ (others : List String) (last : String), last ≠ "" → others ++ [last] ≠ [""] := by
    intro others last hlast heq
    have hback := congrArg List.getLast? heq
    rw [List.getLast?_concat] at hback
    exact hlast (Option.some.inj hback)
  have hcontext : context.text ≠ "" := by cases context <;> decide
  obtain ⟨hsteady, hplain⟩ := steady_context context
  unfold Location.below
  simp only
  generalize l.isWeb = web
  generalize hadd : Location.addSegment web = add
  have hversion : add (Location.dropEmptyLast l.segments) "8" = Location.own l.segments ++ ["8"] := by
    subst hadd
    unfold Location.own
    by_cases hroot : Location.dropEmptyLast l.segments = [""]
    · rw [if_pos hroot, hroot]
      cases web <;> decide
    · have hescaped : Location.escaped web "8" = "8" := by cases web <;> decide
      rw [if_neg hroot, Location.addSegment_steady hroot (by decide), hescaped]
  have hlong : Location.own l.segments ++ ["8"] ++ [context.text] ++ add ["upstreams"] upstream ≠ [""] := by
    intro heq
    have hlength := congrArg List.length heq
    simp only [List.length_append, List.length_cons, List.length_nil] at hlength
    omega
  have happend : add (Location.own l.segments ++ ["8"] ++ [context.text] ++ ["upstreams"]) upstream
      = Location.own l.segments ++ ["8"] ++ [context.text] ++ add ["upstreams"] upstream := by
    subst hadd
    exact Location.addSegment_append (by simp) (by decide) upstream
  have hupstreams : Location.escaped web "upstreams" = "upstreams" := by cases web <;> decide
  calc (Client.serverSegments context upstream id).foldl add (Location.dropEmptyLast l.segments)
      = (tail id).foldl add (add (add (add (add (Location.dropEmptyLast l.segments) "8") context.text)
          "upstreams") upstream) := rfl
    _ = (tail id).foldl add
          (Location.own l.segments ++ ["8"] ++ [context.text] ++ add ["upstreams"] upstream) := by
        subst hadd
        rw [hversion, Location.addSegment_steady (hlone _ _ (by decide)) hsteady, hplain web,
          Location.addSegment_steady (hlone _ _ hcontext) (by decide), hupstreams, happend]
    _ = Location.own l.segments ++ ["8"] ++ [context.text] ++ add ["upstreams"] upstream
          ++ (tail id).map (Location.escaped web) := by
        subst hadd
        exact Location.foldl_addSegment (by simp) hlong fun raw hraw => (steady_tail id raw hraw).1
    _ = Location.own l.segments ++ (["8", context.text] ++ add ["upstreams"] upstream ++ tail id) := by
        rw [List.map_congr_left fun raw hraw => (steady_tail id raw hraw).2 web, List.map_id']
        simp only [List.append_assoc, List.cons_append, List.nil_append]

/-- A steady name is one segment among the others. -/
theorem added_steady {upstream : String} (h : Location.IsSteady upstream) (web : Bool) (context : Context)
    (id : Option Int) : ["8", context.text] ++ Location.addSegment web ["upstreams"] upstream ++ tail id
      = (about context upstream id).map (Location.escaped web) := by
  have htail : (tail id).map (Location.escaped web) = tail id := by
    rw [List.map_congr_left fun raw hraw => (steady_tail id raw hraw).2 web, List.map_id']
  have habout : about context upstream id = "8" :: context.text :: "upstreams" :: upstream :: tail id := rfl
  have hversion : Location.escaped web "8" = "8" := by cases web <;> decide
  have hupstreams : Location.escaped web "upstreams" = "upstreams" := by cases web <;> decide
  rw [Location.addSegment_steady (by decide) h, habout, List.map_cons, List.map_cons, List.map_cons, List.map_cons,
    htail, hversion, (steady_context context).2 web, hupstreams]
  rfl

/-- **The segments that are added stand for what the call is about** exactly if the name is steady. -/
theorem added_shown_iff (web : Bool) (context : Context) (upstream : String) (id : Option Int) :
    (["8", context.text] ++ Location.addSegment web ["upstreams"] upstream ++ tail id).map Location.shown?
      = (about context upstream id).map some ↔ Location.IsSteady upstream := by
  constructor
  · intro h
    have hupstreams : Location.shown? "upstreams" = some "upstreams" := by decide +kernel
    have htail : (tail id).map Location.shown? = (tail id).map some := by
      refine List.map_congr_left ?_
      intro raw hraw
      rw [← (steady_tail id raw hraw).2 web, Location.shown?_escaped, (steady_tail id raw hraw).2 web]
    have hsplit : (about context upstream id).map some
        = [some "8", some context.text] ++ [some "upstreams", some upstream] ++ (tail id).map some := rfl
    rw [List.map_append, List.map_append, htail, hsplit] at h
    have hmiddle := (List.append_inj (List.append_cancel_right h) (List.length_map _)).2
    rw [← hupstreams] at hmiddle
    exact (Location.addSegment_shown_iff (by decide) upstream).mp hmiddle
  · intro h
    have hback : Location.shown? ∘ Location.escaped web = some := by
      funext raw
      rw [Function.comp_apply, Location.shown?_escaped]
    rw [added_steady h, List.map_map, hback]

/-! ## Places of calls -/

/-- **Below an endpoint**: the place of a call, given the location that the endpoint is read as. -/
structure Below (l : Location) (context : Context) (upstream : String) (id : Option Int) (place : Location) :
    Prop where
  /-- All parts but the path are those of the endpoint: scheme, credentials, host, port, query, fragment. -/
  kept : { place with segments := l.segments } = l
  /-- The path goes on with segments that stand for what the call is about, exactly if the name is steady. -/
  path : ∃ added, place.segments = Location.own l.segments ++ added ∧
    (added.map Location.shown? = (about context upstream id).map some ↔ Location.IsSteady upstream)

/-- **Addresses** of all calls at one endpoint. -/
structure Addresses (l : Location) (place : Context → String → Option Int → Location) : Prop where
  below : ∀ context upstream id, Below l context upstream id (place context upstream id)
  /-- Calls about different things have different addresses. -/
  apart : ∀ context upstream id context' upstream' id', Location.IsSteady upstream → Location.IsSteady upstream' →
    (place context upstream id).text = (place context' upstream' id').text →
      context = context' ∧ upstream = upstream' ∧ id = id'
  /-- A name that is not steady has the addresses of another name. -/
  shared : ∀ upstream, ¬ Location.IsSteady upstream →
    ∃ other, other ≠ upstream ∧ ∀ context id, place context other id = place context upstream id

/-- **Whatever an endpoint is read as**, its calls are below it and can be told apart. -/
theorem below_addresses (l : Location) : Addresses l fun context upstream id =>
    l.below (Client.serverSegments context upstream id) where
  below context upstream id :=
    ⟨rfl, _, segments_below l context upstream id, added_shown_iff l.isWeb context upstream id⟩
  apart := by
    intro context upstream id context' upstream' id' hsteady hsteady' htext
    have hplain : ∀ names : List String, ∀ s ∈ names.map (Location.escaped l.isWeb), '/' ∉ s.toList := by
      intro names s hs
      obtain ⟨raw, -, rfl⟩ := List.mem_map.mp hs
      exact Location.slash_notMem_escaped raw
    have hplace : ∀ context upstream id, Location.IsSteady upstream →
        l.below (Client.serverSegments context upstream id) = { l with
          segments := Location.own l.segments ++
            (about context upstream id).map (Location.escaped l.isWeb) } := by
      intro context upstream id h
      rw [← added_steady h l.isWeb, ← segments_below]
      rfl
    rw [hplace context upstream id hsteady, hplace context' upstream' id' hsteady'] at htext
    have hadded := Location.text_inj (by simp [about]) (by simp [about]) (hplain _) (hplain _) htext
    exact about_inj ((List.map_inj_right fun _ _ => Location.escaped_injective).mp hadded)
  shared := by
    intro upstream hupstream
    obtain ⟨other, hne, hother⟩ := Location.addSegment_shared hupstream
    refine ⟨other, hne, ?_⟩
    intro context id
    have hsegments : (l.below (Client.serverSegments context other id)).segments
        = (l.below (Client.serverSegments context upstream id)).segments := by
      rw [segments_below, segments_below, hother l.isWeb ["upstreams"] (by decide)]
    exact congrArg (fun segments => { l with segments := segments }) hsegments

/-- Slashes at the end of an endpoint play no part. -/
theorem new_slashes (endpoint : String) (n : Nat) :
    Client.new (endpoint ++ String.ofList (List.replicate n '/')) = Client.new endpoint := by
  have hslashes : ∀ c ∈ (List.replicate n '/').reverse, (c == '/') = true := by
    intro c hc
    rw [List.eq_of_mem_replicate (List.mem_reverse.mp hc)]
    rfl
  unfold Client.new Text.dropEndWhile
  rw [String.toList_append, String.toList_ofList, List.reverse_append,
    List.dropWhile_append_of_pos hslashes]

/-- **Every call at an endpoint has its own address**, however endpoints are read. An endpoint has no places
at all, or it is read as a location, and then the calls are below it and can be told apart, but for names that
a path does not take as they are. Slashes at the end of the endpoint change nothing. -/
theorem placeBy_addresses (read : Endpoint.Reader) (endpoint : String) :
    ((∃ e, ∀ context upstream id, (Client.new endpoint).placeBy read context upstream id = .error e) ∨
      ∃ l place, read (Client.new endpoint).endpoint = .ok (.place l) ∧
        (∀ context upstream id,
          (Client.new endpoint).placeBy read context upstream id = .ok (place context upstream id)) ∧
        Addresses l place) ∧
    ∀ n context upstream id,
      (Client.new (endpoint ++ String.ofList (List.replicate n '/'))).placeBy read context upstream id =
        (Client.new endpoint).placeBy read context upstream id := by
  refine ⟨?_, fun n context upstream id => by rw [new_slashes]⟩
  cases hread : read (Client.new endpoint).endpoint with
  | error fault =>
    refine .inl ⟨.badEndpoint (Client.new endpoint).endpoint fault, ?_⟩
    intro context upstream id
    unfold Client.placeBy
    rw [hread]
  | ok reading =>
    cases reading with
    | pathless =>
      refine .inl ⟨.pathlessEndpoint (Client.new endpoint).endpoint, ?_⟩
      intro context upstream id
      unfold Client.placeBy
      rw [hread]
    | place l =>
      refine .inr ⟨l, _, rfl, ?_, below_addresses l⟩
      intro context upstream id
      unfold Client.placeBy
      rw [hread]

/-- A tab vanishes from a name, and with it the difference to another name. -/
theorem serversAt_shares : "te\ta" ≠ "tea" ∧ ∃ place,
    (Client.new "http://lb/api").serversAt .http "te\ta" none = .ok place ∧
      (Client.new "http://lb/api").serversAt .http "tea" none = .ok place ∧
      place.segments = ["api", "8", "http", "upstreams", "tea", "servers"] ∧
      place.text = "http://lb/api/8/http/upstreams/tea/servers" := by
  refine ⟨by decide, ⟨"http", none, some "lb", none, ["api", "8", "http", "upstreams", "tea", "servers"], none, none,
    false⟩, ?_, ?_, ?_, ?_⟩
  · decide +kernel
  · decide +kernel
  · rfl
  · decide +kernel

end Border

end BorderSync
