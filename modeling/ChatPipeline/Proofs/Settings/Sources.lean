import Mathlib.Data.List.Nodup
import ChatPipeline.Settings.Environment
import ChatPipeline.Proofs.Checking
import ChatPipeline.Proofs.Text.Trimming

/-!
# Where settings come from

A setting is taken from the environment, else from the file of assignments, else it is the default.
`addMissing` puts the file under the environment (`get?_addMissing`), so what is read afterwards is
what `source` says.  Settings are read in one of three ways (`Sourced`): there is no key, the model
is blank without being empty, or there are settings, whose key and model are trimmed.
-/

namespace ChatPipeline

open ChatPipeline.Text ChatPipeline.Validation

/-! ## Adding a file to an environment -/

namespace Environment

variable {env env' : Environment} {assigned : List (String × Option String)}

theorem get?_append (env : Environment) (name other value : String) :
    get? (env ++ [(other, value)]) name =
      (get? env name).or (if name == other then some value else none) := by
  rw [get?, get?, List.lookup_append, Table.lookup_cons, List.lookup_nil]

private theorem get?_addMissing (hnodup : (assigned.map Prod.fst).Nodup)
    (h : addMissing env assigned = (env', .ok ())) (name : String) :
    get? env' name = (get? env name).or (assigned.lookup name).join := by
  induction assigned generalizing env with
  | nil =>
      cases h
      simp
  | cons entry rest ih =>
      obtain ⟨other, value⟩ := entry
      rw [List.map_cons, List.nodup_cons] at hnodup
      have hlater : name = other → rest.lookup name = none := by
        rintro rfl
        rw [← Option.not_isSome_iff_eq_none, Table.lookup_isSome_iff]
        exact hnodup.1
      rw [Table.lookup_cons]
      cases value with
      | none =>
          rw [ih hnodup.2 h]
          split
          · rename_i hname
            rw [hlater (eq_of_beq hname)]
            rfl
          · rfl
      | some value =>
          rw [addMissing] at h
          split at h
          · rename_i hset
            rw [ih hnodup.2 h]
            split
            · rename_i hname
              obtain ⟨kept, hkept⟩ := Option.isSome_iff_exists.1 hset
              rw [eq_of_beq hname, hkept]
              rfl
            · rfl
          · split at h
            · cases h
            · rw [ih hnodup.2 h, get?_append]
              split
              · rename_i hname
                rw [hlater (eq_of_beq hname), Option.or_assoc]
                rfl
              · rw [Option.or_none]

/-- An assignment that would have to be added, and cannot be. -/
def IsRefused (env : Environment) (assigned : List (String × Option String)) (f : Failure) : Prop :=
  ∃ name value, (name, some value) ∈ assigned ∧ get? env name = none ∧ refusal? name value = some f

private theorem isRefused_of_addMissing {f : Failure} (h : (addMissing env assigned).2 = .error f) :
    IsRefused env assigned f := by
  induction assigned generalizing env with
  | nil => cases h
  | cons entry rest ih =>
      obtain ⟨other, value⟩ := entry
      have hlater : IsRefused env rest f → IsRefused env ((other, value) :: rest) f := by
        rintro ⟨name, text, hmem, hrest⟩
        exact ⟨name, text, List.mem_cons_of_mem _ hmem, hrest⟩
      cases value with
      | none => exact hlater (ih h)
      | some value =>
          rw [addMissing] at h
          split at h
          · exact hlater (ih h)
          · rename_i hset
            split at h
            · rename_i hrefused
              cases h
              exact ⟨other, value, List.mem_cons_self, Option.not_isSome_iff_eq_none.1 hset, hrefused⟩
            · obtain ⟨name, text, hmem, hunset, hrefused⟩ := ih h
              rw [get?_append, Option.or_eq_none_iff] at hunset
              exact hlater ⟨name, text, hmem, hunset.1, hrefused⟩

private theorem addMissing_of_isRefused {f : Failure} (hnodup : (assigned.map Prod.fst).Nodup)
    (h : IsRefused env assigned f) : ∃ g, (addMissing env assigned).2 = .error g := by
  induction assigned generalizing env with
  | nil =>
      obtain ⟨_, _, hmem, -⟩ := h
      cases hmem
  | cons entry rest ih =>
      obtain ⟨other, value⟩ := entry
      rw [List.map_cons, List.nodup_cons] at hnodup
      obtain ⟨name, text, hmem, hunset, hrefused⟩ := h
      rcases List.mem_cons.1 hmem with heq | hlater
      · cases heq
        exact ⟨f, by simp [addMissing, hunset, hrefused]⟩
      · have hne : (name == other) = false := by
          rw [beq_eq_false_iff_ne]
          rintro rfl
          exact hnodup.1 (List.mem_map.2 ⟨_, hlater, rfl⟩)
        have hrest : IsRefused env rest f := ⟨name, text, hlater, hunset, hrefused⟩
        cases value with
        | none => exact ih hnodup.2 hrest
        | some value =>
            rw [addMissing]
            split
            · exact ih hnodup.2 hrest
            · split
              · exact ⟨_, rfl⟩
              · refine ih hnodup.2 ⟨name, text, hlater, ?_, hrefused⟩
                rw [get?_append, hunset, hne]
                rfl

private theorem nodup_put {names : List (String × α)} (h : (names.map Prod.fst).Nodup)
    (name : String)
    (a : α) : ((Table.put name a names).map Prod.fst).Nodup := by
  rw [Table.names_put]
  split
  · exact h
  · rename_i hname
    exact List.nodup_append.2 ⟨h, List.nodup_singleton _, fun a ha b hb => by
      rw [List.mem_singleton] at hb
      rintro rfl
      exact hname (hb ▸ ha)⟩

private theorem nodup_resolve (env : Environment) (assignments : List Assignment) :
    ((resolve env assignments).map Prod.fst).Nodup := by
  unfold resolve
  generalize hstart : ([] : List (String × Option String)) = start
  have hnodup : (start.map Prod.fst).Nodup := by
    rw [← hstart]
    exact List.nodup_nil
  clear hstart
  induction assignments generalizing start with
  | nil => exact hnodup
  | cons a rest ih => exact ih _ (nodup_put hnodup _ _)

end Environment

/-! ## Reading settings -/

namespace Settings

variable {place : Files.Place} {env : Environment} {path : Option String}

/-- What the file assigns; a file that is not there or is no text assigns nothing. -/
def assigned (place : Files.Place) (env : Environment) (path : Option String) :
    List (String × Option String) :=
  ((assignmentFile? place path).bind decode?).elim [] fun text => env.resolve (Assignment.parse text)

/-- The value of a name in the environment, or else in the file. -/
def source (place : Files.Place) (env : Environment) (path : Option String) (name : String) :
    Option String :=
  (env.get? name).or ((assigned place env path).lookup name).join

/-- A file that cannot be loaded: it is no text, or an assignment cannot be added. -/
inductive Unloadable (place : Files.Place) (env : Environment) (path : Option String) :
    Failure → Prop where
  | undecodable (hfile : assignmentFile? place path = some octets) (htext : decode? octets = none) :
      Unloadable place env path (.fault (.other "UnicodeDecodeError") (decodingFault octets))
  | refused (h : Environment.IsRefused env (assigned place env path) f) : Unloadable place env path f

def orDefault (value : Option String) (default : String) : String :=
  (value.filter fun s => !s.isEmpty).getD default

inductive Sourced (value? : String → Option String) : Outcome Settings → Prop where
  | noKey (hkey : isAllBlank ((value? apiKeyName).getD "") = true) :
      Sourced value? (.error (.configuration (apiKeyName ++ " is not set")))
  | blankModel (hkey : isAllBlank ((value? apiKeyName).getD "") = false)
      (hmodel : value? modelName = some given) (hgiven : given ≠ "") (hblank : isAllBlank given = true)
      (report : Report) : Sourced value? (.error (.invalid report))
  | settings (hkey : isAllBlank ((value? apiKeyName).getD "") = false)
      (hmodel : isAllBlank (orDefault (value? modelName) defaultModel) = false) :
      Sourced value? (.ok {
        apiKey := trim ((value? apiKeyName).getD "")
        baseUrl := orDefault (value? baseUrlName) defaultBaseUrl
        model := trim (orDefault (value? modelName) defaultModel) })

private theorem valueOr_eq (env : Environment) (name default : String) :
    valueOr env name default = orDefault (env.get? name) default := by
  unfold valueOr orDefault Environment.getD
  dsimp only
  cases env.get? name with
  | none => rfl
  | some s => by_cases h : s.isEmpty = true <;> simp [Option.filter, h]

private theorem checkNotBlank_text (s : String) :
    checkNotBlank (.text s) = if isAllBlank s then
      reject "value_error" "Value error, must not be empty" (.text s) else .ok (trim s) := by
  rw [← isEmpty_trim]
  rfl

private theorem make_texts {key base given : String} (hkey : isAllBlank key = false) :
    make [("api_key", .text key), ("base_url", .text base), ("model", .text given)] =
      if isAllBlank given then
        .error (.invalid ⟨"ChatModelConfig", [⟨["model"], "Value error, must not be empty",
          "value_error", .text given⟩]⟩)
      else .ok { apiKey := trim key, baseUrl := base, model := trim given } := by
  have hkey' := checkNotBlank_text key
  have hgiven := checkNotBlank_text given
  rw [hkey] at hkey'
  change Checked.toOutcome "ChatModelConfig" (
    (fun apiKey baseUrl model timeout (_ : Unit) => ({ apiKey, baseUrl, model, timeout } : Settings))
      <$> (checkNotBlank (.text key)).under "api_key" <*> Checked.ok base
      <*> (checkNotBlank (.text given)).under "model" <*> Checked.ok none <*> Checked.ok ()) = _
  rw [hkey', hgiven]
  by_cases hblank : isAllBlank given = true
  · rw [if_pos hblank, if_pos hblank]
    rfl
  · rw [if_neg hblank, if_neg hblank]
    rfl

private theorem exists_of_blank_orDefault {value : Option String} {default : String}
    (h : isAllBlank (orDefault value default) = true) (hdefault : isAllBlank default = false) :
    ∃ given, value = some given ∧ given ≠ "" ∧ isAllBlank given = true := by
  cases value with
  | none => exact absurd h (Bool.not_eq_true _ ▸ hdefault)
  | some given =>
      by_cases hempty : given.isEmpty = true
      · rw [orDefault, Option.filter_some_neg (by simp [hempty])] at h
        exact absurd h (Bool.not_eq_true _ ▸ hdefault)
      · rw [orDefault, Option.filter_some_pos (by simp [hempty])] at h
        exact ⟨given, rfl, fun heq => hempty (heq ▸ rfl), h⟩

private theorem sourced_ofEnvironment (env : Environment) :
    Sourced env.get? (ofEnvironment env) := by
  unfold ofEnvironment
  dsimp only
  split
  · rename_i hkey
    exact .noKey hkey
  · rename_i hkey
    rw [Bool.not_eq_true] at hkey
    rw [valueOr_eq, valueOr_eq, make_texts hkey]
    split
    · rename_i hblank
      have hdefault : isAllBlank defaultModel = false := by decide +kernel
      obtain ⟨given, hmodel, hgiven, hblank'⟩ := exists_of_blank_orDefault hblank hdefault
      exact .blankModel hkey hmodel hgiven hblank' _
    · rename_i hblank
      exact .settings hkey (Bool.not_eq_true _ ▸ hblank)

def IsTrimmed (s : String) : Prop := trim s = s ∧ isAllBlank s = false

private theorem isTrimmed_trim {s : String} (h : isAllBlank s = false) : IsTrimmed (trim s) := by
  refine ⟨trim_trim s, ?_⟩
  rwa [← isEmpty_trim, trim_trim, isEmpty_trim]

theorem Sourced.trimmed {value? : String → Option String} {s : Settings}
    (h : Sourced value? (.ok s)) : IsTrimmed s.apiKey ∧ IsTrimmed s.model := by
  cases h with
  | settings hkey hmodel => exact ⟨isTrimmed_trim hkey, isTrimmed_trim hmodel⟩

/-! ## Loading -/

theorem load_of_file {octets : List UInt8} {text : String}
    (hfile : assignmentFile? place path = some octets) (htext : decode? octets = some text) :
    load place env path =
      match env.addMissing (assigned place env path) with
      | (env, .ok ()) => (env, ofEnvironment env)
      | (env, .error f) => (env, .error f) := by
  have hassigned : assigned place env path = env.resolve (Assignment.parse text) := by
    rw [assigned, hfile, Option.bind_some, htext]
    rfl
  have hload : env.load octets = env.addMissing (env.resolve (Assignment.parse text)) := by
    rw [Environment.load, Environment.readText, htext]
  rw [hassigned, load, hfile]
  exact congrArg (fun loaded : Environment × Outcome Unit => match loaded with
    | (env, .ok ()) => (env, ofEnvironment env)
    | (env, .error f) => (env, .error f)) hload

private theorem load_of_undecodable {octets : List UInt8}
    (hfile : assignmentFile? place path = some octets) (htext : decode? octets = none) :
    (load place env path).2 =
      .error (.fault (.other "UnicodeDecodeError") (decodingFault octets)) := by
  rw [load, hfile]
  dsimp only
  rw [Environment.load, Environment.readText, htext]

private theorem nodup_assigned (place : Files.Place) (env : Environment) (path : Option String) :
    ((assigned place env path).map Prod.fst).Nodup := by
  unfold assigned
  cases (assignmentFile? place path).bind decode? with
  | none => exact List.nodup_nil
  | some text => exact Environment.nodup_resolve _ _

private theorem load_cases (place : Files.Place) (env : Environment) (path : Option String) :
    (∃ f, Unloadable place env path f ∧ (load place env path).2 = .error f) ∨
      (∀ f, ¬ Unloadable place env path f) ∧
        Sourced (source place env path) (load place env path).2 := by
  cases hfile : assignmentFile? place path with
  | none =>
      have hassigned : assigned place env path = [] := by rw [assigned, hfile]; rfl
      have hsource : source place env path = env.get? := by
        funext name
        rw [source, hassigned, List.lookup_nil]
        exact Option.or_none
      refine .inr ⟨?_, ?_⟩
      · rintro _ (⟨hother, -⟩ | ⟨_, _, hmem, -⟩)
        · rw [hfile] at hother
          cases hother
        · rw [hassigned] at hmem
          cases hmem
      · rw [hsource, load, hfile]
        exact sourced_ofEnvironment env
  | some octets =>
      cases htext : decode? octets with
      | none => exact .inl ⟨_, .undecodable hfile htext, load_of_undecodable hfile htext⟩
      | some text =>
          have hnodup := nodup_assigned place env path
          rw [load_of_file hfile htext]
          rcases hadd : env.addMissing (assigned place env path) with ⟨after, f | _⟩
          · have hrefused := Environment.isRefused_of_addMissing (congrArg Prod.snd hadd)
            exact .inl ⟨f, .refused hrefused, rfl⟩
          · have hsource : source place env path = after.get? := by
              funext name
              exact (Environment.get?_addMissing hnodup hadd name).symm
            refine .inr ⟨?_, hsource ▸ sourced_ofEnvironment after⟩
            rintro _ (⟨hsame, hnone⟩ | hrefused)
            · rw [hfile] at hsame
              cases hsame
              rw [htext] at hnone
              cases hnone
            · obtain ⟨g, hg⟩ := Environment.addMissing_of_isRefused hnodup hrefused
              rw [hadd] at hg
              cases hg

/-- Settings are read as the environment, the file and the defaults say, in this order, unless the
file cannot be loaded; then this is what goes wrong. -/
theorem load_from_sources (place : Files.Place) (env : Environment) (path : Option String) :
    ((∀ f, ¬ Unloadable place env path f) →
      Sourced (source place env path) (load place env path).2) ∧
    (∀ f, Unloadable place env path f →
      ∃ g, Unloadable place env path g ∧ (load place env path).2 = .error g) ∧
    ∀ s, (load place env path).2 = .ok s → IsTrimmed s.apiKey ∧ IsTrimmed s.model := by
  rcases load_cases place env path with ⟨f, hf, hload⟩ | ⟨hloadable, hsourced⟩
  · refine ⟨fun hloadable => absurd hf (hloadable f), fun _ _ => ⟨f, hf, hload⟩, fun s hs => ?_⟩
    rw [hload] at hs
    cases hs
  · refine ⟨fun _ => hsourced, fun f hf => absurd hf (hloadable f), fun s hs => ?_⟩
    rw [hs] at hsourced
    exact hsourced.trimmed

/-! ### A file below an environment -/

def keyFile : String := "DEEPSEEK_API_KEY=' sk-file '\nDEEPSEEK_MODEL=other\n"

def home : Files.Place where
  here := .directory [(fileName, .file keyFile.toUTF8.toList)]

def shell : Environment := [(modelName, "\tchat "), (baseUrlName, "")]

private theorem assigned_home : assigned home shell none =
    [("DEEPSEEK_API_KEY", some " sk-file "), ("DEEPSEEK_MODEL", some "other")] := by
  decide +kernel

private theorem home_loadable (f : Failure) : ¬ Unloadable home shell none f := by
  have hdecode : (assignmentFile? home none).bind decode? = some keyFile := by decide +kernel
  rintro (⟨hfile, htext⟩ | ⟨name, value, hmem, -, hrefused⟩)
  · rw [hfile, Option.bind_some, htext] at hdecode
    cases hdecode
  · rw [assigned_home] at hmem
    have hfine : Environment.refusal? "DEEPSEEK_API_KEY" " sk-file " = none ∧
        Environment.refusal? "DEEPSEEK_MODEL" "other" = none := ⟨rfl, rfl⟩
    rcases List.mem_cons.1 hmem with heq | hmem
    · cases heq
      rw [hfine.1] at hrefused
      cases hrefused
    · cases List.mem_singleton.1 hmem
      rw [hfine.2] at hrefused
      cases hrefused

/-- The key is the file's, the model that of the shell, and the empty address gives way. -/
theorem shell_over_file :
    (∀ f, ¬ Unloadable home shell none f) ∧
    (load home shell none).2 =
      .ok { apiKey := "sk-file", baseUrl := "https://api.deepseek.com", model := "chat" } := by
  refine ⟨home_loadable, ?_⟩
  have hsourced := (load_from_sources home shell none).1 home_loadable
  have hkey : source home shell none apiKeyName = some " sk-file " := by
    rw [source, assigned_home]
    decide +kernel
  have hmodel : source home shell none modelName = some "\tchat " := by
    rw [source, assigned_home]
    decide +kernel
  have hbase : source home shell none baseUrlName = some "" := by
    rw [source, assigned_home]
    decide +kernel
  generalize (load home shell none).2 = outcome at hsourced
  cases hsourced with
  | noKey h =>
      rw [hkey] at h
      exact absurd h (by decide +kernel)
  | blankModel _ hgiven _ hblank =>
      rw [hmodel] at hgiven
      cases hgiven
      exact absurd hblank (by decide +kernel)
  | settings =>
      rw [hkey, hmodel, hbase]
      have htexts : trim " sk-file " = "sk-file" ∧ trim "\tchat " = "chat" := by decide +kernel
      have hdefault : orDefault (some "") defaultBaseUrl = "https://api.deepseek.com" := by
        decide +kernel
      have hgiven : orDefault (some "\tchat ") defaultModel = "\tchat " := by decide +kernel
      rw [Option.getD_some, htexts.1, hdefault, hgiven, htexts.2]

/-- A blank model is refused, but not as a matter of configuration. -/
theorem blank_model_not_configuration :
    ∃ f, (load { here := .empty } [(apiKeyName, "sk"), (modelName, " ")] none).2 = .error f ∧
      f.kind = "ValidationError" ∧ ∀ text, f ≠ .configuration text :=
  ⟨.invalid ⟨"ChatModelConfig", [⟨["model"], "Value error, must not be empty", "value_error",
    .text " "⟩]⟩, rfl, rfl, nofun⟩

end Settings

end ChatPipeline
