import CallFusion.Cli.Session
import CallFusion.Proofs.Except
import CallFusion.Proofs.Text.Durations
import CallFusion.Proofs.Text.Trimmed
import Mathlib.Logic.Function.Basic

/-!
Where the settings come from. Each key is decided for itself: by its variable unless that is empty, else by the last line of
the settings file about it, else by the defaults. One value that cannot be read is enough to refuse them all, also where
another source decides.
-/

namespace CallFusion

open Text

namespace Settings

def keys : List String :=
  ["profile", "log_level", "demangler", "demangler_command", "demangler_url", "demangler_retries", "demangler_backoff",
    "cache_path", "history_enabled", "telemetry_enabled", "telemetry_url", "payload_size", "payload_align"]

def numberKeys : List String := ["demangler_retries", "payload_size", "payload_align"]

/-- What a line of a settings file gives to a key. The key stands in front of the first equals sign and the value behind it;
blanks around them do not count, nor do quotes around the value. -/
inductive Says (line key value : String) : Prop
  | mk {before after inner : List Char} (spelled : line.toList = before ++ '=' :: after) (first : '=' ∉ before)
    (named : Text.Stripped isSpace before key.toList) (trimmed : Text.Stripped isSpace after inner)
    (bare : Text.Stripped (fun c => c == '"' || c == '\'') inner value.toList)

/-- What the variable of a key gives to it. -/
structure Exported (env : Environment) (key value : String) : Prop where
  found : env.get? ("RPCMERGE_" ++ key.map Char.toUpper) = some value
  filled : value ≠ ""

/-- A value that the key can take: a number or a span of time where one is asked for, and anything elsewhere. -/
structure Readable (key value : String) : Prop where
  number : key ∈ numberKeys → ∃ n, Numeral value n
  span : key = "demangler_backoff" → ∃ d, Span value d

/-- One of the words that switch something on, in small or capital letters. -/
def Affirms (value : String) : Prop :=
  ∃ word ∈ ["1", "true", "yes", "on"], List.Forall₂ (fun c d => c = d ∨ c = d.toUpper) value.toList word.toList

/-- What a value reads as where a switch is asked for. -/
def Switches (value : String) (b : Bool) : Prop := b = true ↔ Affirms value

/-- What a value reads as where a demangler is asked for. -/
inductive Demangles : String → DemanglerKind → Prop
  | inProcess : Demangles "local" .inProcess
  | command : Demangles "command" .command
  | remote : Demangles "remote" .remote
  | unknown {name : String} (other : name ∉ ["local", "command", "remote"]) : Demangles name (.unknown name)

section

variable (lines : List String) (env : Environment)

/-- No source gives to a key what that cannot take. -/
structure Legible : Prop where
  said : ∀ line ∈ lines, ∀ key ∈ keys, ∀ value, Says line key value → Readable key value
  given : ∀ key ∈ keys, ∀ value, Exported env key value → Readable key value

/-- What a key is set to: by its variable, else by the last line about it, else by the default. -/
inductive Decided (key : String) {α : Type} (Reads : String → α → Prop) (default : α) : α → Prop
  | ofVariable {value : String} {a : α} (given : Exported env key value) (reads : Reads value a) : Decided key Reads default a
  | ofLine {before after : List String} {line value : String} {a : α} (unset : ∀ value, ¬ Exported env key value)
    (parts : lines = before ++ line :: after) (said : Says line key value) (last : ∀ later ∈ after, ∀ value, ¬ Says later key value)
    (reads : Reads value a) : Decided key Reads default a
  | ofDefault (unset : ∀ value, ¬ Exported env key value) (silent : ∀ line ∈ lines, ∀ value, ¬ Says line key value) :
    Decided key Reads default default

/-- Every setting is decided for itself. -/
structure Resolved (defaults s : Settings) : Prop where
  profile : Decided lines env "profile" Eq defaults.profile s.profile
  logLevel : Decided lines env "log_level" Eq defaults.logLevel s.logLevel
  demangler : Decided lines env "demangler" Demangles defaults.demangler s.demangler
  command : Decided lines env "demangler_command" Eq defaults.command s.command
  url : Decided lines env "demangler_url" Eq defaults.url s.url
  retries : Decided lines env "demangler_retries" Numeral defaults.retries s.retries
  backoff : Decided lines env "demangler_backoff" Span defaults.backoff s.backoff
  cachePath : Decided lines env "cache_path" Eq defaults.cachePath s.cachePath
  history : Decided lines env "history_enabled" Switches defaults.history s.history
  telemetry : Decided lines env "telemetry_enabled" Switches defaults.telemetry s.telemetry
  telemetryUrl : Decided lines env "telemetry_url" Eq defaults.telemetryUrl s.telemetryUrl
  size : Decided lines env "payload_size" Numeral defaults.payload.size s.payload.size
  align : Decided lines env "payload_align" Numeral defaults.payload.align s.payload.align

end

/-- Settings that can be worked with. -/
structure Valid (s : Settings) : Prop where
  profile : s.profile = "go" ∨ s.profile = "rust"
  demangler : ∀ name, s.demangler ≠ .unknown name
  command : s.demangler = .command → s.command ≠ ""
  url : s.demangler = .remote → s.url ≠ ""
  size : 0 < s.payload.size
  align : ∃ k < 64, s.payload.align.toNat = 2 ^ k

def lineValue? (key line : String) : Option String :=
  match line.toList.dropWhile (· != '=') with
  | [] => none
  | _ :: after =>
    if trim (.ofList (line.toList.takeWhile (· != '='))) = key then
      some (trimWith (fun c => c == '"' || c == '\'') (trim (.ofList after)))
    else none

def variableValue? (env : Environment) (key : String) : Option String :=
  let value := env.get ("RPCMERGE_" ++ key.map Char.toUpper)
  if value.isEmpty then none else some value

def decider? (lines : List String) (env : Environment) (key : String) : Option String :=
  (variableValue? env key).or (lines.reverse.findSome? (lineValue? key))

/-- The settings where some keys are decided and the others are left as they are. -/
def resolve (defaults : Settings) (decided : String → Option String) : Settings where
  profile := (decided "profile").getD defaults.profile
  logLevel := (decided "log_level").getD defaults.logLevel
  demangler := ((decided "demangler").map .ofName).getD defaults.demangler
  command := (decided "demangler_command").getD defaults.command
  url := (decided "demangler_url").getD defaults.url
  retries := ((decided "demangler_retries").bind fun value => (word? value).toOption).getD defaults.retries
  backoff := ((decided "demangler_backoff").bind fun value => (duration? value).toOption).getD defaults.backoff
  cachePath := (decided "cache_path").getD defaults.cachePath
  history := ((decided "history_enabled").map isOn).getD defaults.history
  telemetry := ((decided "telemetry_enabled").map isOn).getD defaults.telemetry
  telemetryUrl := (decided "telemetry_url").getD defaults.telemetryUrl
  payload.size := ((decided "payload_size").bind fun value => (word? value).toOption).getD defaults.payload.size
  payload.align := ((decided "payload_align").bind fun value => (word? value).toOption).getD defaults.payload.align

/-! ### What is checked at the end -/

theorem isPowerOfTwo_iff {n : UInt64} : isPowerOfTwo n = true ↔ ∃ k < 64, n.toNat = 2 ^ k := by
  have bits : n ≠ 0 → (n &&& (n - 1) = 0 ↔ n.toNat.isPowerOfTwo) := by
    intro positive
    have one : (1 : UInt64).toNat = 1 := rfl
    have nonzero : n.toNat ≠ 0 := fun zero => positive (UInt64.toNat_inj.mp zero)
    have less : (1 : UInt64) ≤ n := UInt64.le_iff_toNat_le.mpr (by omega)
    rw [← UInt64.toNat_inj, UInt64.toNat_and, UInt64.toNat_sub_of_le _ _ less, one]
    exact Nat.and_sub_one_eq_zero_iff_isPowerOfTwo nonzero
  rw [isPowerOfTwo, Bool.and_eq_true, bne_iff_ne, beq_iff_eq]
  constructor
  · rintro ⟨positive, clear⟩
    obtain ⟨k, power⟩ := (bits positive).mp clear
    have small : 2 ^ k < 2 ^ 64 := power ▸ n.toNat_lt
    exact ⟨k, (Nat.pow_lt_pow_iff_right (by decide)).mp small, power⟩
  · rintro ⟨k, _, power⟩
    have positive : n ≠ 0 := by
      rintro rfl
      exact absurd power.symm (Nat.two_pow_pos k).ne'
    exact ⟨positive, (bits positive).mpr ⟨k, power⟩⟩

theorem problem?_eq_none_iff {s : Settings} : s.problem? = none ↔ s.Valid := by
  constructor
  · intro fine
    unfold problem? at fine
    split at fine
    · cases fine
    next profile =>
    split at fine
    · cases fine
    next kind known =>
    split at fine
    · cases fine
    next command =>
    split at fine
    · cases fine
    next url =>
    split at fine
    · cases fine
    next size =>
    split at fine
    · cases fine
    next align =>
    constructor
    case profile => simpa [or_iff_not_imp_left] using profile
    case demangler => exact fun name => known name
    case command => simpa using command
    case url => simpa using url
    case size => simpa [UInt64.pos_iff_ne_zero] using size
    case align => exact isPowerOfTwo_iff.mp (by simpa using align)
  · intro valid
    have profile : (["go", "rust"] : List String).contains s.profile = true := by
      simpa [or_iff_not_imp_left] using valid.profile
    have command : (s.demangler == .command && s.command.isEmpty) = false := by simpa using valid.command
    have url : (s.demangler == .remote && s.url.isEmpty) = false := by simpa using valid.url
    have size : (s.payload.size == 0) = false := by simpa [UInt64.pos_iff_ne_zero] using valid.size
    have align := isPowerOfTwo_iff.mpr valid.align
    unfold problem?
    rw [if_neg (by simpa [or_iff_not_imp_left] using profile)]
    split
    · next name unknown => exact absurd unknown (valid.demangler name)
    · simp [command, url, size, align]

/-! ### What values read as -/

theorem lowerChar_eq_iff {c d : Char} (letter : d ∈ "1trueyson".toList) : lowerChar c = d ↔ c = d ∨ c = d.toUpper := by
  have foreign : "1trueyson".toList.Forall fun d => (∀ form ∈ lowerForms, Char.ofNat form.2 ≠ d ∧ form.1 ≠ d.toNat ∧
      form.1 ≠ d.toUpper.toNat) ∧ d.toLower = d ∧ d.toUpper.toLower = d := by decide
  obtain ⟨forms, lower, upper⟩ := List.forall_iff_forall_mem.mp foreign d letter
  have plain : ∀ {e : Char}, (∀ form ∈ lowerForms, form.1 ≠ e.toNat) → lowerForms.lookup e.toNat = none := by
    intro e other
    rw [List.lookup_eq_none_iff]
    exact fun form member => bne_iff_ne.mpr (other form member).symm
  unfold lowerChar
  constructor
  · intro same
    split at same
    · next n found =>
      obtain ⟨before, after, parts, -⟩ := List.lookup_eq_some_iff.mp found
      exact absurd same (forms (c.toNat, n) (by simp [parts])).1
    · by_cases ascii : c.toNat < 128
      · have small : ∀ n < 128, "1trueyson".toList.Forall fun d => (Char.ofNat n).toLower = d →
            Char.ofNat n = d ∨ Char.ofNat n = d.toUpper := by decide
        have spelled := List.forall_iff_forall_mem.mp (small c.toNat ascii) d letter
        rw [Char.ofNat_toNat] at spelled
        exact spelled same
      · have stays : c.toLower = c := dif_neg fun ⟨_, below⟩ =>
          ascii (Nat.lt_of_le_of_lt (UInt32.le_iff_toNat_le.mp below) (by decide))
        exact .inl (stays.symm.trans same)
  · rintro (rfl | rfl)
    · rwa [plain fun form member => (forms form member).2.1]
    · rwa [plain fun form member => (forms form member).2.2]

theorem isOn_iff {value : String} : isOn value = true ↔ Affirms value := by
  have letters : ∀ word ∈ ["1", "true", "yes", "on"], ∀ d ∈ word.toList, d ∈ "1trueyson".toList := by simp
  have spelled : ∀ {cs word : List Char}, (∀ d ∈ word, d ∈ "1trueyson".toList) →
      (cs.map lowerChar = word ↔ List.Forall₂ (fun c d => c = d ∨ c = d.toUpper) cs word) := by
    intro cs word known
    induction word generalizing cs with
    | nil => rw [List.map_eq_nil_iff, List.forall₂_nil_right_iff]
    | cons d word ih =>
      obtain ⟨letter, later⟩ := List.forall_mem_cons.mp known
      cases cs with
      | nil => simp
      | cons c cs => rw [List.map_cons, List.cons.injEq, List.forall₂_cons, lowerChar_eq_iff letter, ih later]
  rw [isOn, List.contains_iff_mem, Affirms]
  constructor
  · intro listed
    exact ⟨_, listed, (spelled (letters _ listed)).mp String.toList_map.symm⟩
  · rintro ⟨word, listed, alike⟩
    rwa [lower, String.toList_injective (String.toList_map.trans ((spelled (letters _ listed)).mpr alike))]

theorem switches_iff {value : String} {b : Bool} : Switches value b ↔ b = isOn value := by
  rw [Switches, ← isOn_iff]
  exact Bool.eq_iff_iff.symm

theorem demangles_iff {name : String} {kind : DemanglerKind} : Demangles name kind ↔ kind = .ofName name := by
  constructor
  · intro reads
    cases reads with
    | inProcess => rfl
    | command => rfl
    | remote => rfl
    | unknown other =>
      simp only [List.mem_cons, List.not_mem_nil, or_false, not_or] at other
      obtain ⟨here, command, remote⟩ := other
      simp [DemanglerKind.ofName, DemanglerKind.text, Ne.symm here, Ne.symm command, Ne.symm remote]
  · rintro rfl
    by_cases known : name ∈ ["local", "command", "remote"]
    · simp only [List.mem_cons, List.not_mem_nil, or_false] at known
      rcases known with rfl | rfl | rfl
      exacts [.inProcess, .command, .remote]
    · have other := known
      simp only [List.mem_cons, List.not_mem_nil, or_false, not_or] at known
      obtain ⟨here, command, remote⟩ := known
      have unknown : DemanglerKind.ofName name = .unknown name := by
        simp [DemanglerKind.ofName, DemanglerKind.text, Ne.symm here, Ne.symm command, Ne.symm remote]
      rw [unknown]
      exact .unknown other

/-! ### One value -/

section

variable {defaults : Settings} {decided : String → Option String} {key value : String} {t : Settings}

theorem resolve_congr {other : String → Option String} (same : ∀ key ∈ keys, decided key = other key) :
    resolve defaults decided = resolve defaults other := by
  simp only [keys, List.forall_mem_cons] at same
  simp only [resolve, same]

theorem numberKeys_subset : numberKeys ⊆ keys := by decide

theorem readable_of_text (number : key ∉ numberKeys) (span : key ≠ "demangler_backoff") : Readable key value :=
  ⟨fun asked => absurd asked number, fun asked => absurd asked span⟩

theorem taken_iff {s : Settings} {name : ValueFault → Fault} (readable : Readable key value)
    (same : resolve defaults (Function.update decided key (some value)) = s) :
    (Except.ok s : Except ValueFault Settings).mapError name = .ok t ↔
      Readable key value ∧ t = resolve defaults (Function.update decided key (some value)) := by
  simp [Except.mapError, readable, same, eq_comm]

theorem number_taken_iff {s : UInt64 → Settings} {name : ValueFault → Fault} (asked : key ∈ numberKeys)
    (same : ∀ n, word? value = .ok n → resolve defaults (Function.update decided key (some value)) = s n) :
    ((wordValue value).map s).mapError name = .ok t ↔
      Readable key value ∧ t = resolve defaults (Function.update decided key (some value)) := by
  have span : key ≠ "demangler_backoff" := by
    rintro rfl
    simp [numberKeys] at asked
  cases read : word? value with
  | error e =>
    have unreadable : ¬ Readable key value := by
      intro readable
      obtain ⟨n, numeral⟩ := readable.number asked
      cases read.symm.trans (word?_eq_ok_iff.mpr numeral)
    simp [wordValue, read, unreadable, Except.map, Except.mapError]
  | ok n =>
    have readable : Readable key value := ⟨fun _ => ⟨n, word?_eq_ok_iff.mp read⟩, fun other => absurd other span⟩
    simp [wordValue, read, readable, same n read, Except.map, Except.mapError, eq_comm]

theorem span_taken_iff {s : Int → Settings} {name : ValueFault → Fault}
    (same : ∀ d, duration? value = .ok d →
      resolve defaults (Function.update decided "demangler_backoff" (some value)) = s d) :
    (((duration? value).mapError .duration).map s).mapError name = .ok t ↔
      Readable "demangler_backoff" value ∧ t = resolve defaults (Function.update decided "demangler_backoff" (some value)) := by
  cases read : duration? value with
  | error e =>
    have unreadable : ¬ Readable "demangler_backoff" value := by
      intro readable
      obtain ⟨d, span⟩ := readable.span rfl
      cases read.symm.trans (duration?_eq_ok_iff.mpr span)
    simp [unreadable, Except.map, Except.mapError]
  | ok d =>
    have readable : Readable "demangler_backoff" value :=
      ⟨fun asked => absurd asked (by decide), fun _ => ⟨d, duration?_eq_ok_iff.mp read⟩⟩
    simp [readable, same d read, Except.map, Except.mapError, eq_comm]

/-- Setting a key decides that key and no other. -/
theorem set_resolve : (resolve defaults decided).set key value = .ok t ↔
    Readable key value ∧ t = resolve defaults (Function.update decided key (some value)) := by
  unfold set assign
  split
  case h_6 | h_12 | h_13 =>
    refine number_taken_iff (by decide) fun n read => ?_
    simp only [resolve, Function.update_self, ne_eq, String.reduceEq, not_false_eq_true, Function.update_of_ne,
      Option.bind_some, read, Except.toOption, Option.getD_some]
  case h_7 =>
    refine span_taken_iff fun d read => ?_
    simp only [resolve, Function.update_self, ne_eq, String.reduceEq, not_false_eq_true, Function.update_of_ne,
      Option.bind_some, read, Except.toOption, Option.getD_some]
  case h_14 =>
    have unknown : key ∉ keys := by
      simp only [keys, List.mem_cons]
      grind
    refine taken_iff (readable_of_text ?_ ?_) (resolve_congr fun other listed => ?_)
    · exact fun asked => unknown (numberKeys_subset asked)
    · rintro rfl
      exact unknown (by decide)
    · exact Function.update_of_ne (ne_of_mem_of_not_mem listed unknown) _ _
  all_goals
    refine taken_iff (readable_of_text (by decide) (by decide)) ?_
    simp only [resolve, Function.update_self, ne_eq, String.reduceEq, not_false_eq_true, Function.update_of_ne,
      Option.map_some, Option.getD_some]

theorem set_cases (defaults : Settings) (decided : String → Option String) (key value : String) :
    (Readable key value ∧
      (resolve defaults decided).set key value = .ok (resolve defaults (Function.update decided key (some value)))) ∨
    (¬ Readable key value ∧ ∃ fault, (resolve defaults decided).set key value = .error fault) := by
  cases set : (resolve defaults decided).set key value with
  | ok s =>
    obtain ⟨readable, rfl⟩ := set_resolve.mp set
    exact .inl ⟨readable, rfl⟩
  | error fault =>
    refine .inr ⟨fun readable => ?_, fault, rfl⟩
    cases set.symm.trans (set_resolve.mpr ⟨readable, rfl⟩)

/-! ### One source -/

/-- What is decided when entries are set one after the other. -/
def overwrite (decided : String → Option String) (entries : List (String × String)) : String → Option String :=
  entries.foldl (fun decided entry => Function.update decided entry.1 (some entry.2)) decided

theorem overwrite_eq (entries : List (String × String)) (decided : String → Option String) (key : String) :
    overwrite decided entries key =
      (entries.reverse.findSome? fun entry => if entry.1 = key then some entry.2 else none).or (decided key) := by
  induction entries generalizing decided with
  | nil => rfl
  | cons entry rest ih =>
    have later : overwrite decided (entry :: rest) = overwrite (Function.update decided entry.1 (some entry.2)) rest := rfl
    rw [later, ih, List.reverse_cons, List.findSome?_append, Option.or_assoc]
    congr 1
    by_cases same : key = entry.1
    · simp [same]
    · simp [same, Ne.symm same]

theorem setLines_resolve {n : Nat} {lines : List String} : (resolve defaults decided).setLines n lines = .ok t ↔
    (∀ entry ∈ lines.filterMap keyValue?, Readable entry.1 entry.2) ∧
      t = resolve defaults (overwrite decided (lines.filterMap keyValue?)) := by
  induction lines generalizing n decided with
  | nil => simp [setLines, overwrite, eq_comm]
  | cons line rest ih =>
    rw [setLines]
    cases said : keyValue? line with
    | none =>
      rw [List.filterMap_cons_none said]
      exact ih
    | some entry =>
      obtain ⟨key, value⟩ := entry
      rw [List.filterMap_cons_some said, List.forall_mem_cons, and_assoc]
      rcases set_cases defaults decided key value with ⟨readable, set⟩ | ⟨unreadable, fault, set⟩
      · rw [and_iff_right readable]
        simp only [set]
        exact ih
      · simp [set, unreadable]

def setVariable (env : Environment) (s : Settings) (key : String) : Except Fault Settings :=
  match variableValue? env key with
  | none => .ok s
  | some value => (s.set key value).mapError fun e => .configuration ("RPCMERGE_" ++ key.map Char.toUpper) (some e)

theorem setVariables_eq (s : Settings) (env : Environment) : s.setVariables env = keys.foldlM (setVariable env) s := by
  have named : variableKeys = keys.map fun key => (key, "RPCMERGE_" ++ key.map Char.toUpper) := rfl
  rw [setVariables, named, List.foldlM_map]
  congr 1
  funext s key
  simp only [setVariable, variableValue?]
  cases (env.get ("RPCMERGE_" ++ key.map Char.toUpper)).isEmpty with
  | true => rfl
  | false => rfl

def variableEntries (env : Environment) (keys : List String) : List (String × String) :=
  keys.filterMap fun key => (variableValue? env key).map (key, ·)

theorem setVariables_resolve {env : Environment} : (resolve defaults decided).setVariables env = .ok t ↔
    (∀ entry ∈ variableEntries env keys, Readable entry.1 entry.2) ∧
      t = resolve defaults (overwrite decided (variableEntries env keys)) := by
  rw [setVariables_eq]
  generalize keys = ks
  induction ks generalizing decided with
  | nil => simp [variableEntries, overwrite, pure, Except.pure, eq_comm]
  | cons key rest ih =>
    rw [List.foldlM_cons, variableEntries, List.filterMap_cons, setVariable]
    cases filled : variableValue? env key with
    | none => exact ih
    | some value =>
      rw [Option.map_some, List.forall_mem_cons, and_assoc]
      dsimp only
      rcases set_cases defaults decided key value with ⟨readable, set⟩ | ⟨unreadable, fault, set⟩
      · rw [and_iff_right readable, set]
        exact ih
      · simp only [unreadable, set, false_and, iff_false]
        exact nofun

theorem mem_variableEntries {env : Environment} {ks : List String} :
    (key, value) ∈ variableEntries env ks ↔ key ∈ ks ∧ variableValue? env key = some value := by
  simp [variableEntries]

theorem findSome?_variableEntries {env : Environment} {ks : List String} (listed : key ∈ ks) :
    ((variableEntries env ks).reverse.findSome? fun entry => if entry.1 = key then some entry.2 else none) =
      variableValue? env key := by
  have found : ∀ value, ((variableEntries env ks).reverse.findSome? fun entry => if entry.1 = key then some entry.2 else none) =
      some value → variableValue? env key = some value := by
    intro value picked
    obtain ⟨⟨k, v⟩, member, same⟩ := List.exists_of_findSome?_eq_some picked
    obtain ⟨rfl, rfl⟩ : k = key ∧ v = value := by simpa using same
    exact (mem_variableEntries.mp (List.mem_reverse.mp member)).2
  cases filled : variableValue? env key with
  | none =>
    rw [Option.eq_none_iff_forall_ne_some]
    intro value picked
    cases filled.symm.trans (found value picked)
  | some value =>
    have member : (key, value) ∈ (variableEntries env ks).reverse :=
      List.mem_reverse.mpr (mem_variableEntries.mpr ⟨listed, filled⟩)
    have some := List.findSome?_isSome_iff (f := fun entry => if entry.1 = key then some entry.2 else none).mpr
      ⟨(key, value), member, by simp⟩
    obtain ⟨other, picked⟩ := Option.isSome_iff_exists.mp some
    rw [picked, ← filled, found other picked]

/-! ### A line -/

theorem keys_plain : ∀ key ∈ keys, key.toList.head? ≠ some '#' := by
  simp [keys]

theorem isSpace_ne {c : Char} (blank : isSpace c = true) : c ≠ '=' := by
  rintro rfl
  cases blank

theorem keyValue?_eq {line : String} {before after : List Char} {c : Char}
    (key : (trim line).toList.takeWhile (· != '=') = before) (rest : (trim line).toList.dropWhile (· != '=') = c :: after) :
    keyValue? line = if (trim line).startsWith "#" then none else
      some (trim (.ofList before), trimWith (fun c => c == '"' || c == '\'') (trim (.ofList after))) := by
  have whole := List.takeWhile_append_dropWhile (p := (· != '=')) (l := (trim line).toList)
  rw [key, rest] at whole
  have filled : (trim line).isEmpty = false := by
    rw [String.isEmpty_eq_false_iff]
    intro none
    simp [none] at whole
  have split : (trim line).toList.drop before.length = c :: after := by rw [← whole, List.drop_left]
  unfold keyValue?
  simp only [filled, Bool.false_or, key, split]

theorem comment_head? {line : String} (comment : line.startsWith "#" = true) :
    (trim (.ofList (line.toList.takeWhile (· != '=')))).toList.head? = some '#' := by
  obtain ⟨cs, parts⟩ := String.startsWith_string_iff.mp comment
  have start : line.toList = '#' :: cs := parts.symm
  have kept : isSpace '#' = false := by decide
  rw [start, List.takeWhile_cons_of_pos (by decide), trim, trimWith_cons kept, List.head?_cons]

theorem keyValue?_iff {line : String} (known : key ∈ keys) :
    keyValue? line = some (key, value) ↔ lineValue? key line = some value := by
  obtain ⟨front, back, parts, blank, blank'⟩ := exists_trimmed isSpace line
  have before : ∀ c ∈ front, (c != '=') = true := fun c member => bne_iff_ne.mpr (isSpace_ne (blank c member))
  have behind : ∀ c ∈ back, (c != '=') = true := fun c member => bne_iff_ne.mpr (isSpace_ne (blank' c member))
  change line.toList = front ++ ((trim line).toList ++ back) at parts
  have whole := List.takeWhile_append_dropWhile (p := (· != '=')) (l := (trim line).toList)
  rw [lineValue?, parts, List.dropWhile_append_of_pos before, List.takeWhile_append_of_pos before, List.dropWhile_append]
  cases rest : (trim line).toList.dropWhile (· != '=') with
  | nil =>
    rw [rest, List.append_nil] at whole
    simp only [keyValue?, whole, List.drop_length, List.dropWhile_eq_nil_iff.mpr behind]
    simp
  | cons e after =>
    have named : ((trim line).toList ++ back).takeWhile (· != '=') = (trim line).toList.takeWhile (· != '=') := by
      rw [List.takeWhile_append, if_neg]
      intro all
      have lengths := congrArg List.length whole
      rw [List.length_append, all, rest, List.length_cons] at lengths
      omega
    have key_eq : trim (.ofList (front ++ (trim line).toList.takeWhile (· != '='))) =
        trim (.ofList ((trim line).toList.takeWhile (· != '='))) := by
      simpa [trim] using trimWith_append blank (List.forall_mem_nil _) ((trim line).toList.takeWhile (· != '='))
    have value_eq : trim (.ofList (after ++ back)) = trim (.ofList after) := by
      simpa [trim] using trimWith_append (List.forall_mem_nil _) blank' after
    rw [keyValue?_eq rfl rest, named]
    simp only [List.isEmpty_cons, Bool.false_eq_true, if_false, List.cons_append, key_eq, value_eq]
    split
    · next comment =>
      have other : trim (.ofList ((trim line).toList.takeWhile (· != '='))) ≠ key := by
        rintro rfl
        exact keys_plain _ known (comment_head? comment)
      simp [other]
    · simp [eq_comm]

theorem bind_keyValue? {line : String} (known : key ∈ keys) :
    ((keyValue? line).bind fun entry => if entry.1 = key then some entry.2 else none) = lineValue? key line := by
  ext value
  rw [← keyValue?_iff known, Option.bind_eq_some_iff]
  constructor
  · rintro ⟨⟨k, v⟩, said, picked⟩
    obtain ⟨rfl, rfl⟩ : k = key ∧ v = value := by simpa using picked
    exact said
  · intro said
    exact ⟨(key, value), said, if_pos rfl⟩

theorem findSome?_lines (known : key ∈ keys) (lines : List String) :
    ((lines.filterMap keyValue?).reverse.findSome? fun entry => if entry.1 = key then some entry.2 else none) =
      lines.reverse.findSome? (lineValue? key) := by
  rw [← List.filterMap_reverse, ← List.head?_filterMap, List.filterMap_filterMap, List.head?_filterMap]
  exact congrArg (List.findSome? · lines.reverse) (funext fun line => bind_keyValue? known)

theorem lineValue?_eq_some_iff {line : String} : lineValue? key line = some value ↔ Says line key value := by
  constructor
  · intro said
    have whole := List.takeWhile_append_dropWhile (p := (· != '=')) (l := line.toList)
    have kept := List.head?_dropWhile_not (· != '=') line.toList
    rw [lineValue?] at said
    cases rest : line.toList.dropWhile (· != '=') with
    | nil =>
      rw [rest] at said
      cases said
    | cons c after =>
      rw [rest] at said kept whole
      obtain rfl : c = '=' := by simpa using kept
      dsimp only at said
      split at said
      · next named =>
        refine ⟨whole.symm, fun member => ?_, trimWith_eq_iff.mp named, trimWith_eq_iff.mp rfl, ?_⟩
        · simpa using List.mem_takeWhile_imp member
        · rw [← trimWith_eq_iff, String.ofList_toList]
          exact Option.some.inj said
      · cases said
  · rintro ⟨spelled, first, named, trimmed, bare⟩
    rename_i before after inner
    obtain ⟨taken, dropped⟩ : line.toList.takeWhile (· != '=') = before ∧ line.toList.dropWhile (· != '=') = '=' :: after := by
      rw [spelled]
      exact takeWhile_append_of_ends _ (fun c member => bne_iff_ne.mpr (ne_of_mem_of_not_mem member first)) (by simp)
    have key_eq : trim (.ofList before) = key := trimWith_eq_iff.mpr named
    have inner_eq : trim (.ofList after) = .ofList inner := trimWith_eq_iff.mpr (by rwa [String.toList_ofList])
    rw [lineValue?, taken, dropped]
    dsimp only
    rw [if_pos key_eq, inner_eq, trimWith_eq_iff.mpr bare]

theorem variableValue?_eq_some_iff {env : Environment} : variableValue? env key = some value ↔ Exported env key value := by
  unfold variableValue? Environment.get
  constructor
  · intro set
    dsimp only at set
    split at set
    · cases set
    next filled =>
    obtain rfl := Option.some.inj set
    cases found : env.get? ("RPCMERGE_" ++ key.map Char.toUpper) with
    | none =>
      rw [found] at filled
      exact absurd rfl filled
    | some value =>
      rw [found] at filled
      exact ⟨found, by simpa using filled⟩
  · rintro ⟨found, filled⟩
    rw [found]
    simp [filled]

theorem variableValue?_eq_none_iff {env : Environment} :
    variableValue? env key = none ↔ ∀ value, ¬ Exported env key value := by
  simp only [Option.eq_none_iff_forall_ne_some, ← variableValue?_eq_some_iff, ne_eq]

theorem silent_iff {lines : List String} : (∀ line ∈ lines, lineValue? key line = none) ↔
    ∀ line ∈ lines, ∀ value, ¬ Says line key value := by
  simp only [Option.eq_none_iff_forall_ne_some, ← lineValue?_eq_some_iff, ne_eq]

theorem readable_lines_iff {lines : List String} : (∀ entry ∈ lines.filterMap keyValue?, Readable entry.1 entry.2) ↔
    ∀ line ∈ lines, ∀ key ∈ keys, ∀ value, Says line key value → Readable key value := by
  constructor
  · intro readable line member key known value said
    have entry := (keyValue?_iff known).mpr (lineValue?_eq_some_iff.mpr said)
    exact readable (key, value) (List.mem_filterMap.mpr ⟨line, member, entry⟩)
  · rintro readable ⟨key, value⟩ entry
    obtain ⟨line, member, said⟩ := List.mem_filterMap.mp entry
    by_cases known : key ∈ keys
    · exact readable line member key known value (lineValue?_eq_some_iff.mp ((keyValue?_iff known).mp said))
    · -- What is said about a key that means nothing may be anything.
      apply readable_of_text
      · exact fun asked => known (numberKeys_subset asked)
      · rintro rfl
        exact known (by decide)

theorem readable_variables_iff {env : Environment} : (∀ entry ∈ variableEntries env keys, Readable entry.1 entry.2) ↔
    ∀ key ∈ keys, ∀ value, Exported env key value → Readable key value := by
  simp only [Prod.forall, mem_variableEntries, and_imp, variableValue?_eq_some_iff]
  exact ⟨fun readable key known value => readable key value known, fun readable key value known => readable key known value⟩

/-! ### All sources -/

theorem validate_iff {s : Settings} : s.validate = .ok t ↔ s.Valid ∧ t = s := by
  rw [validate, ← problem?_eq_none_iff]
  cases s.problem? with
  | none => simp [eq_comm]
  | some what => simp

/-- What every source left decided, the later ones over the earlier ones. -/
theorem resolve_sources (lines : List String) (env : Environment) :
    resolve defaults (overwrite (overwrite (fun _ => none) (lines.filterMap keyValue?)) (variableEntries env keys)) =
      resolve defaults (decider? lines env) := by
  apply resolve_congr
  intro key known
  rw [overwrite_eq, overwrite_eq, findSome?_variableEntries known, findSome?_lines known, Option.or_none, decider?]

theorem sources_iff {lines : List String} {env : Environment} :
    (∃ s, defaults.setLines 1 lines = .ok s ∧ ∃ s', s.setVariables env = .ok s' ∧ s'.validate = .ok t) ↔
      Legible lines env ∧ t.Valid ∧ t = resolve defaults (decider? lines env) := by
  have start : defaults = resolve defaults fun _ => none := rfl
  rw [← resolve_sources]
  constructor
  · rintro ⟨s, file, s', applied, checked⟩
    rw [start] at file
    obtain ⟨readable, rfl⟩ := setLines_resolve.mp file
    obtain ⟨readable', rfl⟩ := setVariables_resolve.mp applied
    obtain ⟨valid, rfl⟩ := validate_iff.mp checked
    exact ⟨⟨readable_lines_iff.mp readable, readable_variables_iff.mp readable'⟩, valid, rfl⟩
  · rintro ⟨legible, valid, rfl⟩
    have readable := readable_lines_iff.mpr legible.said
    have readable' := readable_variables_iff.mpr legible.given
    refine ⟨_, ?_, _, setVariables_resolve.mpr ⟨readable', rfl⟩, validate_iff.mpr ⟨valid, rfl⟩⟩
    change (resolve defaults fun _ => none).setLines 1 lines = _
    exact setLines_resolve.mpr ⟨readable, rfl⟩

variable {lines : List String} {env : Environment} {α : Type} {Reads : String → α → Prop} {default a : α}

theorem decided_iff : Decided lines env key Reads default a ↔
    (decider? lines env key).elim (a = default) (Reads · a) := by
  rw [decider?]
  constructor
  · intro decided
    cases decided with
    | ofVariable given reads => rwa [variableValue?_eq_some_iff.mpr given]
    | ofLine unset parts said last reads =>
      rename_i before after line value
      have found : lines.reverse.findSome? (lineValue? key) = some value := by
        rw [List.findSome?_eq_some_iff]
        refine ⟨after.reverse, line, before.reverse, by simp [parts], lineValue?_eq_some_iff.mpr said, ?_⟩
        simpa using silent_iff.mpr last
      rwa [variableValue?_eq_none_iff.mpr unset, Option.none_or, found]
    | ofDefault unset silent =>
      have none : lines.reverse.findSome? (lineValue? key) = none := by
        rw [List.findSome?_eq_none_iff]
        simpa using silent_iff.mpr silent
      rw [variableValue?_eq_none_iff.mpr unset, Option.none_or, none]
      rfl
  · intro decided
    cases given : variableValue? env key with
    | some value =>
      rw [given] at decided
      exact .ofVariable (variableValue?_eq_some_iff.mp given) decided
    | none =>
      rw [given, Option.none_or] at decided
      cases found : lines.reverse.findSome? (lineValue? key) with
      | some value =>
        rw [found] at decided
        obtain ⟨after, line, before, parts, said, last⟩ := List.findSome?_eq_some_iff.mp found
        have parts' : lines = before.reverse ++ line :: after.reverse := by simpa using congrArg List.reverse parts
        have silent := silent_iff.mp (fun later behind => last later (List.mem_reverse.mp behind))
        exact .ofLine (variableValue?_eq_none_iff.mp given) parts' (lineValue?_eq_some_iff.mp said) silent decided
      | none =>
        rw [found] at decided
        obtain rfl : a = default := decided
        refine .ofDefault (variableValue?_eq_none_iff.mp given) (silent_iff.mp ?_)
        simpa using List.findSome?_eq_none_iff.mp found

theorem decided_iff_eq (read : String → Option α)
    (reads : ∀ value ∈ decider? lines env key, ∃ b, read value = some b ∧ ∀ a, Reads value a ↔ a = b) :
    Decided lines env key Reads default a ↔ a = ((decider? lines env key).bind read).getD default := by
  rw [decided_iff]
  cases found : decider? lines env key with
  | none => rfl
  | some value =>
    obtain ⟨b, same, only⟩ := reads value found
    rw [Option.elim_some, Option.bind_some, same, Option.getD_some, only]

theorem not_legible_iff : ¬ Legible lines env ↔
    (∃ line ∈ lines, ∃ key ∈ keys, ∃ value, Says line key value ∧ ¬ Readable key value) ∨
    ∃ key ∈ keys, ∃ value, Exported env key value ∧ ¬ Readable key value := by
  have parts : Legible lines env ↔ (∀ line ∈ lines, ∀ key ∈ keys, ∀ value, Says line key value → Readable key value) ∧
      ∀ key ∈ keys, ∀ value, Exported env key value → Readable key value :=
    ⟨fun legible => ⟨legible.said, legible.given⟩, fun legible => ⟨legible.1, legible.2⟩⟩
  rw [parts, not_and_or]
  push Not
  exact Iff.rfl

theorem Legible.readable (legible : Legible lines env) (known : key ∈ keys) (decided : decider? lines env key = some value) :
    Readable key value := by
  rw [decider?, Option.or_eq_some_iff] at decided
  rcases decided with given | ⟨-, found⟩
  · exact legible.given key known value (variableValue?_eq_some_iff.mp given)
  · obtain ⟨line, member, said⟩ := List.exists_of_findSome?_eq_some found
    exact legible.said line (List.mem_reverse.mp member) key known value (lineValue?_eq_some_iff.mp said)

theorem decided_text_iff {default s : String} :
    Decided lines env key Eq default s ↔ s = (decider? lines env key).getD default := by
  rw [decided_iff_eq some fun value _ => ⟨value, rfl, fun a => eq_comm⟩, Option.bind_fun_some]

theorem Legible.number_iff (legible : Legible lines env) (asked : key ∈ numberKeys) {default n : UInt64} :
    Decided lines env key Numeral default n ↔
      n = ((decider? lines env key).bind fun value => (word? value).toOption).getD default := by
  refine decided_iff_eq _ fun value decided => ?_
  obtain ⟨m, numeral⟩ := (legible.readable (numberKeys_subset asked) decided).number asked
  have read := word?_eq_ok_iff.mpr numeral
  refine ⟨m, by rw [read, Except.toOption], fun n => ?_⟩
  rw [← word?_eq_ok_iff, read, Except.ok.injEq, eq_comm]

theorem Legible.span_iff (legible : Legible lines env) {default d : Int} :
    Decided lines env "demangler_backoff" Span default d ↔
      d = ((decider? lines env "demangler_backoff").bind fun value => (duration? value).toOption).getD default := by
  refine decided_iff_eq _ fun value decided => ?_
  obtain ⟨m, span⟩ := (legible.readable (by decide) decided).span rfl
  have read := duration?_eq_ok_iff.mpr span
  refine ⟨m, by rw [read, Except.toOption], fun n => ?_⟩
  rw [← duration?_eq_ok_iff, read, Except.ok.injEq, eq_comm]

theorem Legible.resolved_iff (legible : Legible lines env) {s : Settings} :
    Resolved lines env defaults s ↔ s = resolve defaults (decider? lines env) := by
  have switch : ∀ {key : String} {default b : Bool}, Decided lines env key Switches default b ↔
      b = ((decider? lines env key).map isOn).getD default := by
    intro key default b
    rw [Option.map_eq_bind]
    exact decided_iff_eq _ fun value _ => ⟨isOn value, rfl, fun b => switches_iff⟩
  have kind : ∀ {key : String} {default kind : DemanglerKind}, Decided lines env key Demangles default kind ↔
      kind = ((decider? lines env key).map .ofName).getD default := by
    intro key default kind
    rw [Option.map_eq_bind]
    exact decided_iff_eq _ fun value _ => ⟨.ofName value, rfl, fun kind => demangles_iff⟩
  constructor
  · intro resolved
    ext : 1
    case profile => exact decided_text_iff.mp resolved.profile
    case logLevel => exact decided_text_iff.mp resolved.logLevel
    case demangler => exact kind.mp resolved.demangler
    case command => exact decided_text_iff.mp resolved.command
    case url => exact decided_text_iff.mp resolved.url
    case retries => exact (legible.number_iff (by decide)).mp resolved.retries
    case backoff => exact legible.span_iff.mp resolved.backoff
    case cachePath => exact decided_text_iff.mp resolved.cachePath
    case history => exact switch.mp resolved.history
    case telemetry => exact switch.mp resolved.telemetry
    case telemetryUrl => exact decided_text_iff.mp resolved.telemetryUrl
    case payload =>
      ext : 1
      · exact (legible.number_iff (by decide)).mp resolved.size
      · exact (legible.number_iff (by decide)).mp resolved.align
  · rintro rfl
    constructor
    case profile | logLevel | command | url | cachePath | telemetryUrl => exact decided_text_iff.mpr rfl
    case demangler => exact kind.mpr rfl
    case history | telemetry => exact switch.mpr rfl
    case backoff => exact legible.span_iff.mpr rfl
    case retries | size | align => exact (legible.number_iff (by decide)).mpr rfl

theorem load_eq_ok_iff {file : Option (String × String)} {env : Environment} : load defaults file env = .ok t ↔
    ∃ s, defaults.setLines 1 (splitChar '\n' ((file.map (·.2)).getD "")) = .ok s ∧
      ∃ s', s.setVariables env = .ok s' ∧ s'.validate = .ok t := by
  have nothing : defaults.setLines 1 (splitChar '\n' "") = .ok defaults := rfl
  have layers : load defaults file env =
      (file.elim (.ok defaults) fun found => defaults.setFile found.1 found.2) >>= fun s =>
        s.setVariables env >>= validate := by
    cases file with
    | none => rfl
    | some found => rfl
  rw [layers, Except.bind_eq_ok_iff]
  refine exists_congr fun s => and_congr ?_ Except.bind_eq_ok_iff
  cases file with
  | none => rw [Option.map_none, Option.getD_none, nothing, Option.elim_none]
  | some found => exact Except.mapError_eq_ok_iff

end

end Settings

namespace Cli

open Settings

/-- The text of the settings file that counts: the one of the working directory, else the one of the home directory, else
none. -/
def settingsText (w : Workspace) : String :=
  ((w.read fileName).toOption.or (w.read (Path.join (w.environment.get "HOME") fileName)).toOption).getD ""

theorem settingsFile_text (w : Workspace) : ((settingsFile w).map (·.2)).getD "" = settingsText w := by
  simp only [settingsFile, settingsText, List.findSome?_cons, List.findSome?_nil]
  cases (w.read fileName).toOption with
  | none =>
    cases (w.read (Path.join (w.environment.get "HOME") fileName)).toOption with
    | none => rfl
    | some content => rfl
  | some content => rfl

def settingsLines (w : Workspace) : List String := ((settingsText w).toList.splitOn '\n').map .ofList

theorem settingsIn_eq_ok_iff {home : String} {w : Workspace} {t : Settings} : settingsIn home w = .ok t ↔
    Legible (settingsLines w) w.environment ∧ t.Valid ∧ Resolved (settingsLines w) w.environment (.standard home) t := by
  rw [settingsIn, load_eq_ok_iff, settingsFile_text, splitChar_eq, sources_iff]
  refine and_congr_right fun legible => and_congr_right fun _ => ?_
  rw [settingsLines, legible.resolved_iff]

/-- The settings are refused when a line or a variable cannot be read or they do not fit together, and only then. -/
theorem settings_decided (home : String) (w : Workspace) :
    ((∃ fault, settingsIn home w = .error fault) ↔
      (∃ line ∈ settingsLines w, ∃ key ∈ keys, ∃ value, Says line key value ∧ ¬ Readable key value) ∨
      (∃ key ∈ keys, ∃ value, Exported w.environment key value ∧ ¬ Readable key value) ∨
      ∃ s, Resolved (settingsLines w) w.environment (.standard home) s ∧ ¬ s.Valid) ∧
    ∀ t, settingsIn home w = .ok t → Resolved (settingsLines w) w.environment (.standard home) t ∧
      0 < t.payload.size ∧ ∃ k < 64, t.payload.align.toNat = 2 ^ k := by
  have refused : (∃ fault, settingsIn home w = .error fault) ↔ ¬ ∃ t, settingsIn home w = .ok t := by
    cases settingsIn home w with
    | error fault => simp
    | ok t => simp
  rw [refused, ← or_assoc, ← not_legible_iff]
  constructor
  · constructor
    · intro none
      by_cases legible : Legible (settingsLines w) w.environment
      · right
        have resolved := legible.resolved_iff.mpr (Eq.refl (resolve (.standard home) (decider? _ _)))
        exact ⟨_, resolved, fun valid => none ⟨_, settingsIn_eq_ok_iff.mpr ⟨legible, valid, resolved⟩⟩⟩
      · exact .inl legible
    · rintro wrong ⟨t, loaded⟩
      obtain ⟨legible, valid, resolved⟩ := settingsIn_eq_ok_iff.mp loaded
      rcases wrong with illegible | ⟨s, resolved', invalid⟩
      · exact illegible legible
      · -- Where all can be read, the sources leave one outcome.
        rw [legible.resolved_iff] at resolved resolved'
        exact invalid (resolved' ▸ resolved ▸ valid)
  · intro t loaded
    obtain ⟨-, valid, resolved⟩ := settingsIn_eq_ok_iff.mp loaded
    exact ⟨resolved, valid.size, valid.align⟩

end Cli

end CallFusion
