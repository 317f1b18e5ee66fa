import Walkthrough.Proofs.Settings.Variables
import Walkthrough.Settings.Reading
/-!
# The precedence of settings

Six variables make up the settings. Each has its effective value: the
environment's, though that be empty, before the file's, and the file's before none
at all. What the effective values call for is said here without regard to how an
environment is completed (`Calls`), and leaves one answer (`Calls.unique`); reading
settings gives that answer wherever the bindings of the file can be set
(`precedence`), whichever way they are read off its text. Any other variable of the
environment counts only where the file refers to it.
-/

namespace Walkthrough.Settings

open EnvFile

variable {env env' : Environment} {eff eff' : String → Option String}
  {words : List String} {s s' : Settings} {r r' : Except Error Settings}

/-- The variables that settings are read from. -/
def variableNames : List String :=
  ["APP_BASE", "NL_DIR", "ARTIFACTS_DIR", "SAVE_HTML", "DEBUG", "MCP_SERVER_COMMAND"]

/-! ## What the values of the variables call for -/

/-- A value that is not empty, and a default in place of any other. -/
def filled (found : Option String) (default : String) : String :=
  (found.filter (· ≠ "")).getD default

/-- A value that stands for yes, blanks at its ends and capitals aside. No letter
beyond ASCII has one of the letters of these words as its small form. -/
def SwitchesOn (found : Option String) : Prop :=
  ∃ value ∈ found,
    String.ofList ((Text.trim value.toList).map Char.toLower) ∈ ["1", "true", "yes", "on"]

instance {found : Option String} : Decidable (SwitchesOn found) :=
  inferInstanceAs (Decidable (∃ value ∈ found,
    String.ofList ((Text.trim value.toList).map Char.toLower) ∈ ["1", "true", "yes", "on"]))

/-- The command in a value without the blanks at its ends, and the default command
where nothing is left. -/
def commandLine (found : Option String) : String :=
  let line := Text.trimmed (found.getD "")
  if line = "" then defaultCommand else line

/-- **Settings follow the values of the variables,** the command being these words. -/
structure Follows (eff : String → Option String) (words : List String) (s : Settings) : Prop where
  baseUrl : s.baseUrl = filled (eff "APP_BASE") "http://127.0.0.1:8080"
  documents : s.documents = filled (eff "NL_DIR") "tests/md"
  artifacts : s.artifacts = filled (eff "ARTIFACTS_DIR") "artifacts"
  savePages : s.savePages = true ↔ SwitchesOn (eff "SAVE_HTML")
  debug : s.debug = true ↔ SwitchesOn (eff "DEBUG")
  command : s.command = words

/-- **What the values of the variables call for:** settings that follow them, or the
refusal of a command that does not fall into words. -/
structure Calls (eff : String → Option String) (r : Except Error Settings) : Prop where
  settled : ∀ words, ShellWords.split (commandLine (eff "MCP_SERVER_COMMAND")) = .ok words →
    ∃ s, r = .ok s ∧ Follows eff words s
  refused : ∀ e, ShellWords.split (commandLine (eff "MCP_SERVER_COMMAND")) = .error e →
    r = .error (.command e)

theorem Follows.unique (h : Follows eff words s) (h' : Follows eff words s') : s = s' := by
  have hsave : s.savePages = s'.savePages :=
    Bool.eq_iff_iff.2 (h.savePages.trans h'.savePages.symm)
  have hdebug : s.debug = s'.debug := Bool.eq_iff_iff.2 (h.debug.trans h'.debug.symm)
  cases s
  cases s'
  simp only [Settings.mk.injEq]
  exact ⟨h.baseUrl.trans h'.baseUrl.symm, h.documents.trans h'.documents.symm,
    h.artifacts.trans h'.artifacts.symm, hsave, hdebug, h.command.trans h'.command.symm⟩

/-- **The values of the variables call for one answer only.** -/
theorem Calls.unique (h : Calls eff r) (h' : Calls eff r') : r = r' := by
  cases hsplit : ShellWords.split (commandLine (eff "MCP_SERVER_COMMAND")) with
  | ok words =>
    obtain ⟨s, rfl, hs⟩ := h.settled words hsplit
    obtain ⟨s', rfl, hs'⟩ := h'.settled words hsplit
    rw [hs.unique hs']
  | error e => rw [h.refused e hsplit, h'.refused e hsplit]

/-- Nothing counts but the values of the six variables. -/
theorem Calls.congr (h : Calls eff r) (heff : ∀ name ∈ variableNames, eff name = eff' name) :
    Calls eff' r := by
  have hcommand := heff "MCP_SERVER_COMMAND" (by simp [variableNames])
  refine ⟨fun words hwords => ?_, fun e he => h.refused e (by rwa [hcommand])⟩
  obtain ⟨s, hr, hs⟩ := h.settled words (by rwa [hcommand])
  refine ⟨s, hr, ?_⟩
  exact {
    baseUrl := by rw [hs.baseUrl, heff "APP_BASE" (by simp [variableNames])]
    documents := by rw [hs.documents, heff "NL_DIR" (by simp [variableNames])]
    artifacts := by rw [hs.artifacts, heff "ARTIFACTS_DIR" (by simp [variableNames])]
    savePages := by rw [hs.savePages, heff "SAVE_HTML" (by simp [variableNames])]
    debug := by rw [hs.debug, heff "DEBUG" (by simp [variableNames])]
    command := hs.command }

/-! ## What an environment states -/

theorem textOr_eq (env : Environment) (name default : String) :
    textOr env name default = filled (env.get? name) default := by
  unfold textOr filled
  cases env.get? name with
  | none => rfl
  | some value => by_cases h : value = "" <;> simp [h, Option.filter_some]

theorem isOn_iff {value : String} :
    isOn value = true ↔
      String.ofList ((Text.trim value.toList).map Char.toLower) ∈ ["1", "true", "yes", "on"] := by
  rw [isOn, decide_eq_true_iff, switchedOn, List.mem_map]
  constructor
  · rintro ⟨word, hword, heq⟩
    rwa [← heq, String.ofList_toList]
  · exact fun h => ⟨_, h, String.toList_ofList⟩

theorem flag_iff (env : Environment) (name : String) :
    flag env name false = true ↔ SwitchesOn (env.get? name) := by
  unfold flag SwitchesOn
  cases env.get? name with
  | none => simp
  | some value => simp [isOn_iff]

/-! ## Any way to read a file -/

section

variable {read : String → List Binding}

/-- **A completed environment states what its values call for.** -/
theorem calls_load {text : String} (h : EnvFile.load read env text = .ok env') :
    Calls env'.get? (load read env text) := by
  have hline : commandText env' = commandLine (env'.get? "MCP_SERVER_COMMAND") := rfl
  constructor
  · intro words hwords
    simp only [load, h, ofEnvironment, hline, hwords]
    exact ⟨_, rfl, textOr_eq .., textOr_eq .., textOr_eq .., flag_iff .., flag_iff .., rfl⟩
  · intro e he
    simp only [load, h, ofEnvironment, hline, he]
    rfl

/-- **A file completes an environment, or settings are refused for a binding.** -/
theorem load_cases (text : String) (hread : isDisabled env = false) :
    Settable env (resolve env (read text)) ∧
        Calls (effective env (resolve env (read text))) (load read env text) ∨
      ¬ Settable env (resolve env (read text)) ∧
        ∃ e, load read env text = .error (.binding e) := by
  have hnames := names_resolve_nodup env (read text)
  have hload : EnvFile.load read env text = merge env (resolve env (read text)) := by
    rw [EnvFile.load, hread]
    rfl
  rw [← exists_merge_iff hnames, ← hload]
  cases hcompleted : EnvFile.load read env text with
  | error e =>
    refine .inr ⟨nofun, e, ?_⟩
    rw [load, hcompleted]
  | ok env' =>
    refine .inl ⟨⟨env', rfl⟩, (calls_load hcompleted).congr fun name _ => ?_⟩
    exact get?_of_merge hnames (hload ▸ hcompleted)

theorem ofFiles_eq_load {tree : FileTree} {given : Option String} {text : String}
    (hread : isDisabled env = false) (htext : variablesText tree (filePath given) = .ok text) :
    ofFiles read env tree given = load read env text := by
  rw [ofFiles, hread, htext]
  rfl

/-- **The environment comes before the file, and the file before the defaults,**
whichever way the bindings of the file are read. Where they can be set, settings are
what the effective values call for; where they cannot, settings are refused for one
of them. An environment that differs neither in the six variables nor in one that the
file refers to leads to the same answer. A file that is no text is refused as such. -/
theorem precedence {read : String → List Binding} {env : Environment} {tree : FileTree}
    {given : Option String} (hread : isDisabled env = false) :
    (∀ text, variablesText tree (filePath given) = .ok text →
      (Settable env (resolve env (read text)) →
        Calls (effective env (resolve env (read text))) (ofFiles read env tree given)) ∧
      (¬ Settable env (resolve env (read text)) →
        ∃ e, ofFiles read env tree given = .error (.binding e)) ∧
      ∀ env' : Environment, isDisabled env' = false →
        (∀ name ∈ variableNames ++ mentioned (read text), env'.get? name = env.get? name) →
        Settable env (resolve env (read text)) →
        Settable env' (resolve env' (read text)) →
          ofFiles read env' tree given = ofFiles read env tree given) ∧
    ∀ e, variablesText tree (filePath given) = .error e →
      ofFiles read env tree given = .error e := by
  refine ⟨fun text htext => ?_, fun e he => by rw [ofFiles, hread, he]; rfl⟩
  have hcalls : ∀ {e : Environment}, isDisabled e = false →
      Settable e (resolve e (read text)) →
        Calls (effective e (resolve e (read text))) (ofFiles read e tree given) := by
    intro e he hset
    rw [ofFiles_eq_load he htext]
    exact ((load_cases text he).resolve_right fun h => h.1 hset).2
  refine ⟨hcalls hread, fun hset => ?_, fun env' hread' hsame hset hset' => ?_⟩
  · rw [ofFiles_eq_load hread htext]
    exact ((load_cases text hread).resolve_left fun h => hset h.1).2
  · obtain ⟨hsix, hmentioned⟩ := List.forall_mem_append.1 hsame
    refine (hcalls hread' hset').unique ((hcalls hread hset).congr fun name hname => ?_)
    rw [effective, effective, hsix name hname, resolve_congr hmentioned]

end

/-- An environment in which one of the six variables is empty, one is blank, and one
says no. -/
def shopEnvironment : Environment :=
  [("NL_DIR", ""), ("DEBUG", "0"), ("MCP_SERVER_COMMAND", " \t"), ("HOST", "shop.local")]

/-- A file that says otherwise, and refers to two variables. -/
def shopVariables : String :=
  "APP_BASE=http://$\x7bHOST\x7d:$\x7bPORT:-80\x7d\nNL_DIR=other\nDEBUG=1\nSAVE_HTML=' Yes '\n"

/-- A directory with this file of variables. -/
def holding (text : String) : FileTree := ⟨[([".env"], .file (Text.toBytes text))]⟩

/-- What the environment sets stands against the file, the empty directory and the no
included; the file has its say on the rest; and the home directory has none. -/
theorem precedence_shop :
    isDisabled shopEnvironment = false ∧
    variablesText (holding shopVariables) (filePath none) = .ok shopVariables ∧
    Settable shopEnvironment (resolve shopEnvironment (bindings shopVariables)) ∧
    (∃ s, ofFiles bindings shopEnvironment (holding shopVariables) none = .ok s ∧
      s.baseUrl = "http://shop.local:80" ∧ s.documents = "tests/md" ∧ s.artifacts = "artifacts" ∧
      s.savePages = true ∧ s.debug = false ∧
      s.command = ["npx", "-y", "@playwright/mcp@0.0.37"]) ∧
    ofFiles bindings (shopEnvironment.add "HOME" "/root") (holding shopVariables) none =
      ofFiles bindings shopEnvironment (holding shopVariables) none := by
  have hread : isDisabled shopEnvironment = false := by decide
  have htext : variablesText (holding shopVariables) (filePath none) = .ok shopVariables := by
    decide +kernel
  have hbindings : bindings shopVariables =
      [⟨"APP_BASE", some "http://$\x7bHOST\x7d:$\x7bPORT:-80\x7d"⟩, ⟨"NL_DIR", some "other"⟩,
        ⟨"DEBUG", some "1"⟩, ⟨"SAVE_HTML", some " Yes "⟩] := by
    decide +kernel
  have hset : Settable shopEnvironment (resolve shopEnvironment (bindings shopVariables)) := by
    rw [hbindings]
    decide +kernel
  obtain ⟨hcalls, -, hsame⟩ :=
    (@precedence bindings shopEnvironment (holding shopVariables) none hread).1 shopVariables htext
  rw [hbindings] at hcalls hsame hset ⊢
  obtain ⟨s, hs, hf⟩ := (hcalls hset).settled ["npx", "-y", "@playwright/mcp@0.0.37"]
    (by decide +kernel)
  refine ⟨hread, htext, hset, ⟨s, hs, ?_, ?_, ?_, ?_, ?_, hf.command⟩, ?_⟩
  · rw [hf.baseUrl]
    decide +kernel
  · rw [hf.documents]
    decide +kernel
  · rw [hf.artifacts]
    decide +kernel
  · rw [hf.savePages]
    decide +kernel
  · rw [← Bool.not_eq_true, hf.debug]
    decide +kernel
  · exact hsame _ (by decide) (by decide +kernel) hset (by decide +kernel)

/-- A file that binds a name that no variable can have. -/
def unsettableVariables : String := "'A=B'=c\nNL_DIR=x\n"

/-- **A binding that cannot be set ends the reading of settings,** though the file says
where the documents are and the command falls into words. -/
theorem unsettable_ends :
    isDisabled [] = false ∧
    variablesText (holding unsettableVariables) (filePath none) = .ok unsettableVariables ∧
    effective [] (resolve [] (bindings unsettableVariables)) "NL_DIR" = some "x" ∧
    ofFiles bindings [] (holding unsettableVariables) none = .error (.binding .badName) ∧
    ¬ Calls (effective [] (resolve [] (bindings unsettableVariables)))
      (ofFiles bindings [] (holding unsettableVariables) none) := by
  have hrefused : ofFiles bindings [] (holding unsettableVariables) none =
      .error (.binding .badName) := by
    decide +kernel
  refine ⟨by decide, by decide +kernel, by decide +kernel, hrefused, fun hcalls => ?_⟩
  obtain ⟨s, hs, -⟩ := hcalls.settled ["npx", "-y", "@playwright/mcp@0.0.37"] (by decide +kernel)
  rw [hrefused] at hs
  cases hs

end Walkthrough.Settings
