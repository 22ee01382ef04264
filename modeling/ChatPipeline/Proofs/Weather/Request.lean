import ChatPipeline.Proofs.Tool.Stock
import ChatPipeline.Proofs.Template.Segments
import ChatPipeline.Proofs.Web.Address

/-!
# What the weather service is asked

The weather tool sends one request for a city, under an address with the escaped name of the city in
it.  The name cannot be seen from outside its place: whatever it is, the address holds visible ASCII
characters only and is taken apart into the same host, query and absent fragment, and the name can
be read back from it, so that no two cities have one address (`city_address`).
-/

namespace ChatPipeline

open ChatPipeline.Text ChatPipeline.Validation ChatPipeline.Web

namespace Weather

/-! ## The run of the tool -/

def resultType : RecordType := {
  name := "Result", fields := [({ name := "weather" }, .text), ({ name := "temp" }, .int)] }

def answer (depth : Nat) (city : String) (response : Response) : Outcome Value := do
  let found ← readResponse depth city response
  ToolDeclaration.finish resultType found

def cityPayload (city : String) : Value := .dict [("city", .text city)]

private theorem coroutine_lookUpCity (link : Link σ) (options : Options) (city : String) :
    Work.coroutine (lookUpCity link options city) = (do
      let response ← Work.coroutine
        (send link options.timeout { address := address city, agent := options.agent })
      Work.ofOutcome (readResponse options.room city response)) := by
  unfold lookUpCity
  rw [Work.coroutine_bind]
  congr 1
  funext response
  exact Work.coroutine_ofOutcome (own_readResponse _ city response)

theorem exists_tool_run (link : Link σ) (options : Options) :
    ∃ t, tool link options = .ok t ∧ ∀ city, t.run (cityPayload city) = (do
      let response ← Work.coroutine
        (send link options.timeout { address := address city, agent := options.agent })
      Work.ofOutcome (answer options.room city response)) := by
  have hname : "get_weather".isEmpty = false := by decide
  refine ⟨_, ToolDeclaration.toTool_of_named hname (Schema.parametersOf_texts "Arguments" .forbid
    ("city", "City name, e.g. Beijing or Paris") []) rfl, fun city => ?_⟩
  have hbuild : ToolDeclaration.build (declaration link options).arguments (cityPayload city) =
      .ok (.record "Arguments" [("city", .text city)] []) := rfl
  dsimp only
  unfold ToolDeclaration.run
  rw [hbuild]
  funext deadline scene
  change (Work.coroutine (lookUpCity link options city) >>= fun raw =>
    Work.ofOutcome (ToolDeclaration.finish (declaration link options).result raw)) deadline scene = _
  rw [coroutine_lookUpCity]
  simp only [Work.bind_apply]
  rcases Work.coroutine (send link options.timeout _) deadline scene with ⟨response | f | _, scene'⟩
  · dsimp only
    unfold answer
    cases readResponse options.room city response <;> rfl
  · rfl
  · rfl

/-! ## The address -/

def addressSegments : List Template.Segment :=
  [.literal "https://wttr.in/", .named "city", .literal "?format=j1"]

private theorem markup_addressSegments :
    Template.markup addressSegments = "https://wttr.in/\x7bcity\x7d?format=j1" := by
  decide

private theorem toList_address (city : String) :
    (address city).toList = "https://wttr.in/".toList ++
      ((escape isPathName city).toList ++ "?format=j1".toList) := by
  simp only [address, host, String.toList_append, List.append_assoc]
  rfl

private theorem expand_addressSegments (city : String) :
    Template.expand [("city", .text (escape isPathName city))]
      (Template.markup addressSegments) = .ok (address city) := by
  have hnamed : ∀ name, .named name ∈ addressSegments → name = "city" := by
    simp [addressSegments]
  rw [Template.expand_markup addressSegments (fun _ => escape isPathName city) _
    (fun name hname => hnamed name hname ▸ Template.city_isVariable)
    (fun name hname => by rw [hnamed name hname]; rfl)]
  have hjoined : String.join (addressSegments.map
      (Template.Segment.shown fun _ => escape isPathName city)) = address city := by
    rw [String.ext_iff, toList_address]
    simp [addressSegments, Template.Segment.shown]
  rw [hjoined]

/-! ## The address taken apart -/

theorem forall_mem_city (city : String) :
    ∀ c ∈ (escape isPathName city).toList, isKeptInPath c = true :=
  forall_isKeptInPath (escape_isEscaped isPathName city)

private theorem not_mem_city {c : Char} (hc : isKeptInPath c = false) (city : String) :
    c ∉ (escape isPathName city).toList := by
  intro hmem
  rw [forall_mem_city city c hmem] at hc
  cases hc

private theorem address_visible (city : String) :
    ∀ c ∈ (address city).toList, isVisible c = true ∧ c ≠ ' ' := by
  have hservice : ("https://wttr.in/".toList.all fun c => isVisible c && c != ' ') = true := by decide
  have hquery : ("?format=j1".toList.all fun c => isVisible c && c != ' ') = true := by decide
  simp only [List.all_eq_true, Bool.and_eq_true, bne_iff_ne] at hservice hquery
  rw [toList_address, List.forall_mem_append, List.forall_mem_append]
  refine ⟨hservice, fun c hc => ⟨?_, ?_⟩, hquery⟩
  · exact isVisible_of_isKeptInPath (forall_mem_city city c hc)
  · exact ne_of_mem_of_not_mem hc (not_mem_city (by decide) city)

private theorem ofParts_service (path : List Char) :
    ofParts (lower "https".toList) "wttr.in".toList path (some "format=j1".toList) none = .ok {
      scheme := "https", host := "wttr.in"
      path := escape isKeptInPath (String.ofList (withoutDots path)), query := some "format=j1" } := by
  have hscheme : lower "https".toList = "https" := by decide
  have huser : takeUser "wttr.in".toList = ([], "wttr.in".toList) := by decide
  have hport : cut ':' "wttr.in".toList = ("wttr.in".toList, none) := by decide
  have hhost : lower "wttr.in".toList = "wttr.in" := by decide
  have hquery : escape isKeptInQuery (String.ofList "format=j1".toList) = "format=j1" := by decide
  have hnamed : "https".isEmpty = false := by decide
  simp only [ofParts, hscheme, huser, hport, hhost, hnamed, Bool.false_and, Option.map_some, hquery]
  rfl

private theorem parse_address (city : String) :
    Address.parse (address city) =
      if maxLength < (address city).toList.length then .error (invalid "URL too long")
      else .ok {
        scheme := "https", host := "wttr.in"
        path := String.ofList (withoutDots ('/' :: (escape isPathName city).toList))
        query := some "format=j1" } := by
  split
  · rename_i hlong
    rw [Address.parse, if_pos hlong]
  · rename_i hshort
    let path := '/' :: (escape isPathName city).toList
    have hscheme : takeScheme (address city).toList =
        ("https".toList, "//wttr.in".toList ++ (path ++ '?' :: "format=j1".toList)) := by
      rw [toList_address]
      rfl
    have hauthority : takeAuthority ("//wttr.in".toList ++ (path ++ '?' :: "format=j1".toList)) =
        ("wttr.in".toList, path ++ '?' :: "format=j1".toList) := rfl
    have hquery : '?' ∉ path := by
      rw [List.mem_cons, not_or]
      exact ⟨by decide, not_mem_city (by decide) city⟩
    have hfragment : '#' ∉ path ++ '?' :: "format=j1".toList := by
      rw [List.mem_append, List.mem_cons, not_or, not_or]
      exact ⟨⟨by decide, not_mem_city (by decide) city⟩, by decide⟩
    have hkept : escape isKeptInPath (String.ofList (withoutDots path)) =
        String.ofList (withoutDots path) := by
      refine escape_of_kept ?_
      rw [String.toList_ofList]
      exact forall_mem_withoutDots (by decide)
        (List.forall_mem_cons.2 ⟨by decide, forall_mem_city city⟩)
    rw [Address.parse_eq (Nat.not_lt.1 hshort) (fun c hc => (address_visible city c hc).1) hscheme
      hauthority hfragment hquery]
    rw [ofParts_service, hkept]

/-! ## The name of a city in its address -/

theorem decode?_city (city : String) :
    decode? (unescape (escape isPathName city).toList) = some city :=
  decode?_unescape_escape (by decide) city

private theorem address_eq (city : String) :
    address city = "https://wttr.in/" ++ escape isPathName city ++ "?format=j1" := by
  rw [String.ext_iff, toList_address, String.toList_append, String.toList_append, List.append_assoc]

private theorem address_inj {city other : String} :
    address other = address city ↔ other = city := by
  constructor
  · intro h
    rw [String.ext_iff, toList_address, toList_address, List.append_cancel_left_eq,
      List.append_cancel_right_eq] at h
    have hread := decode?_city other
    rw [h, decode?_city city] at hread
    exact (Option.some.inj hread).symm
  · exact congrArg address

/-- `name` is what stands for a city in an address. -/
structure StandsFor (name city address : String) : Prop where
  address_eq : address = "https://wttr.in/" ++ name ++ "?format=j1"
  filled_in : Template.expand [("city", .text name)] "https://wttr.in/\x7bcity\x7d?format=j1" =
    .ok address
  escaped : IsEscaped isPathName name.toList
  read_back : decode? (unescape name.toList) = some city
  visible : ∀ c ∈ address.toList, isVisible c = true ∧ c ≠ ' '
  apart : Address.parse address =
    if maxLength < address.toList.length then .error (invalid "URL too long")
    else .ok {
      scheme := "https", host := "wttr.in"
      path := String.ofList (withoutDots ('/' :: name.toList)), query := some "format=j1" }

private theorem escape_standsFor (city : String) :
    StandsFor (escape isPathName city) city (address city) where
  address_eq := address_eq city
  filled_in := markup_addressSegments ▸ expand_addressSegments city
  escaped := escape_isEscaped isPathName city
  read_back := decode?_city city
  visible := address_visible city
  apart := parse_address city

def Options.requestFor (options : Options) (name : String) : Request where
  address := "https://wttr.in/" ++ name ++ "?format=j1"
  agent := options.agent

/-- Over either link, the tool sends one request for a city, under an address of its own, from which
the city can be told and in which nothing but the path depends on it. -/
theorem city_address (link : Link σ) (options : Options) (city : String) :
    ∃ t name, tool link options = .ok t ∧
      (match link with
        | .shared send => t.run (cityPayload city) = (do
            let response ← Work.coroutine (send (options.requestFor name))
            Work.ofOutcome (answer options.room city response))
        | .own connect => t.run (cityPayload city) = (do
            let response ← Work.coroutine (do
              let send ← connect options.timeout
              send (options.requestFor name))
            Work.ofOutcome (answer options.room city response))) ∧
      StandsFor name city (address city) ∧ ∀ other, address other = address city ↔ other = city := by
  obtain ⟨t, htool, hrun⟩ := exists_tool_run link options
  have hrequest : { address := address city, agent := options.agent } =
      options.requestFor (escape isPathName city) := by
    rw [address_eq]
    rfl
  refine ⟨t, escape isPathName city, htool, ?_, escape_standsFor city,
    fun other => address_inj⟩
  cases link with
  | shared send =>
      dsimp only
      rw [hrun, hrequest]
      rfl
  | own connect =>
      dsimp only
      rw [hrun, hrequest]
      rfl

end Weather

end ChatPipeline
