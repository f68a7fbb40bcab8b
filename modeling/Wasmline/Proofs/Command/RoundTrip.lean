import Wasmline.Command.Line
import Wasmline.Proofs.Source.Recognition
import Mathlib.Data.List.Nodup
import Mathlib.Data.List.Perm.Basic

/-!
# Command lines in any order

A configuration is written as a command line with one argument for each output that has a path, for a
trap mode and for each switch that is on, and one for the entry. Reading it gives the configuration
back, in whatever order the arguments stand (`readLine_perm_arguments`).

* **One argument** (`Parsed.Records.exists_readArg`). An argument that has its value with it leaves no
  setting open, so it is read the same wherever it stands; it is recorded unless the place that it fills
  is taken.
* **All of them** (`Parsed.Records.exists_foldlM`). What is recorded is said by membership alone
  (`Parsed.Records`), so the order leaves no trace, and arguments for different places are all read.
* **One argument for each place** (`Config.nodup_slot_arguments`): the arguments of a configuration are
  such ones.

A path is any text: it may be empty, start with dashes or have equals signs in it, since the name of a
setting ends at the first one. Only the entry must not start with a dash.
-/

namespace Wasmline

namespace Command

/-! ### Arguments that have their values with them -/

/-- A way to write a switch: its long name behind two dashes or a short one behind one dash. -/
inductive Spelling (s : Switch) where
  | long
  | short (c : Char) (stands : Opt.ofShort? c = some (.switch s))

def Spelling.text {s : Switch} : Spelling s → String
  | long => "--" ++ s.name
  | short c _ => String.ofList ['-', c]

/-- An argument of a command line by what it means. A setting has its value behind an equals sign. -/
inductive Argument where
  | entry (name : String)
  | setting (s : Setting) (value : String)
  | switch (s : Switch) (spelling : Spelling s)

namespace Argument

def text : Argument → String
  | entry name => name
  | setting s value => "--" ++ s.name ++ "=" ++ value
  | switch _ spelling => spelling.text

/-- The place that the argument fills, which is that of an option or else of the entry. -/
def slot : Argument → Option Opt
  | entry _ => none
  | setting s _ => some (.setting s)
  | switch s _ => some (.switch s)

/-- The argument asks for a run and cannot be taken for another one. -/
def Plain : Argument → Prop
  | entry name => name.toList.head? ≠ some '-'
  | setting _ _ => True
  | switch s _ => s ≠ .help ∧ s ≠ .version

end Argument

/-! ### Reading one argument -/

theorem Opt.mem_all (o : Opt) : o ∈ Opt.all := by
  cases o with
  | switch s => cases s <;> decide
  | setting s => cases s <;> decide

theorem Opt.ofName?_name (o : Opt) : Opt.ofName? o.name = some o := by
  cases o with
  | switch s => cases s <;> rfl
  | setting s => cases s <;> rfl

theorem Opt.ne_equals_of_mem_name (o : Opt) : ∀ c ∈ o.name.toList, decide (c ≠ '=') = true := by
  rw [← List.all_eq_true]
  cases o with
  | switch s => cases s <;> rfl
  | setting s => cases s <;> rfl

/-- The name of an option ends at the first equals sign. -/
theorem Opt.span_name (o : Opt) (rest : List Char) (hends : ∀ c ∈ rest.head?, c = '=') :
    (o.name.toList ++ rest).takeWhile (· ≠ '=') = o.name.toList ∧
      (o.name.toList ++ rest).dropWhile (· ≠ '=') = rest := by
  refine span_eq_iff.mpr ⟨rfl, o.ne_equals_of_mem_name, ?_⟩
  intro c hfirst
  simp [hends c hfirst]

namespace Parsed

variable {p : Parsed}

theorem readLong_setting (s : Setting) (value : List Char) :
    p.readLong (s.name.toList ++ '=' :: value) = p.readSetting s (some (String.ofList value)) := by
  obtain ⟨hfront, hbehind⟩ := Opt.span_name (.setting s) ('=' :: value) (by simp)
  have hnamed : Opt.ofName? s.name = some (.setting s) := (Opt.setting s).ofName?_name
  simp only [Opt.name] at hfront hbehind
  simp only [readLong, hfront, hbehind, String.ofList_toList, hnamed]

theorem readLong_switch (s : Switch) : p.readLong s.name.toList = p.readSwitch s := by
  obtain ⟨hfront, hbehind⟩ := Opt.span_name (.switch s) [] (by simp)
  have hnamed : Opt.ofName? s.name = some (.switch s) := (Opt.switch s).ofName?_name
  simp only [Opt.name, List.append_nil] at hfront hbehind
  simp only [readLong, hfront, hbehind, String.ofList_toList, hnamed]

theorem readArg_long {arg : String} {text : List Char} (hgoesOn : p.ended = false)
    (hwritten : arg.toList = '-' :: '-' :: text) (hgoes : text ≠ []) :
    p.readArg arg = p.readLong text := by
  obtain ⟨c, rest, rfl⟩ := List.exists_cons_of_ne_nil hgoes
  simp [readArg, hgoesOn, hwritten]

theorem readArg_short {c : Char} {o : Opt} (hgoesOn : p.ended = false)
    (hstands : Opt.ofShort? c = some o) :
    p.readArg (String.ofList ['-', c]) = p.readShort [c] := by
  have hdash : c ≠ '-' := by
    rintro rfl
    cases hstands
  simp [readArg, hgoesOn, hdash]

theorem readArg_plain {arg : String} (hgoesOn : p.ended = false) (hclosed : p.openSetting = none)
    (hplain : arg.toList.head? ≠ some '-') : p.readArg arg = p.readEntry arg := by
  cases hwritten : arg.toList with
  | nil => simp [readArg, hgoesOn, hclosed, hwritten]
  | cons c rest =>
    have hdash : c ≠ '-' := by
      rintro rfl
      exact hplain (by rw [hwritten, List.head?_cons])
    simp [readArg, hgoesOn, hclosed, hwritten, hdash]

theorem close_of_closed (hclosed : p.openSetting = none) : p.close = .ok p := by
  rw [close, hclosed]

theorem readArg_text_entry {name : String} (hgoesOn : p.ended = false) (hclosed : p.openSetting = none)
    (hplain : (Argument.entry name).Plain) (hfree : p.entry = none) :
    p.readArg (Argument.entry name).text = .ok { p with entry := some name } := by
  rw [Argument.text, readArg_plain hgoesOn hclosed hplain, readEntry, close_of_closed hclosed, hfree]
  rfl

theorem readArg_text_setting {s : Setting} (value : String) (hgoesOn : p.ended = false)
    (hclosed : p.openSetting = none) (hfree : p.settings.lookup s = none) :
    p.readArg (Argument.setting s value).text =
      .ok { p with settings := p.settings ++ [(s, value)] } := by
  have hwritten : (Argument.setting s value).text.toList =
      '-' :: '-' :: (s.name.toList ++ '=' :: value.toList) := by
    simp [Argument.text]
  rw [readArg_long hgoesOn hwritten (by simp), readLong_setting, String.ofList_toList, readSetting,
    close_of_closed hclosed]
  simp [bind, Except.bind, store, hfree]

theorem readSwitch_of_free {s : Switch} (hclosed : p.openSetting = none)
    (hasksRun : s ≠ .help ∧ s ≠ .version) (hfree : s ∉ p.switches) :
    p.readSwitch s = .ok { p with switches := p.switches ++ [s] } := by
  -- the two switches that end the reading are out, which leaves the last case of the match
  obtain ⟨hnoHelp, hnoVersion⟩ := hasksRun
  rw [readSwitch, close_of_closed hclosed]
  simp only [bind, Except.bind, if_neg hfree]
  rfl

theorem readArg_text_switch {s : Switch} (spelling : Spelling s) (hgoesOn : p.ended = false)
    (hclosed : p.openSetting = none) (hplain : (Argument.switch s spelling).Plain)
    (hfree : s ∉ p.switches) :
    p.readArg (Argument.switch s spelling).text = .ok { p with switches := p.switches ++ [s] } := by
  have hread := readSwitch_of_free hclosed hplain hfree
  cases spelling with
  | long =>
    have hwritten : (Argument.switch s .long).text.toList = '-' :: '-' :: s.name.toList := by
      simp [Argument.text, Spelling.text]
    rw [readArg_long hgoesOn hwritten (by cases s <;> simp [Switch.name]), readLong_switch, hread]
  | short c hstands =>
    rw [Argument.text, Spelling.text, readArg_short hgoesOn hstands, readShort, hstands]
    simp only [hread, readShort]

/-! ### Reading all of them -/

/-- What has been read is what the arguments give, and the next argument is read for itself. -/
structure Records (p : Parsed) (given : List Argument) : Prop where
  entry (name : String) : p.entry = some name ↔ .entry name ∈ given
  setting (s : Setting) (value : String) : p.settings.lookup s = some value ↔ .setting s value ∈ given
  switch (s : Switch) : s ∈ p.switches ↔ ∃ spelling, .switch s spelling ∈ given
  closed : p.openSetting = none
  goesOn : p.ended = false

theorem records_empty : empty.Records [] where
  entry := by simp [empty]
  setting := by simp [empty]
  switch := by simp [empty]
  closed := rfl
  goesOn := rfl

namespace Records

variable {given : List Argument}

theorem of_mem_iff {given' : List Argument} (hr : p.Records given)
    (hsame : ∀ a, a ∈ given ↔ a ∈ given') : p.Records given' where
  entry name := (hr.entry name).trans (hsame _)
  setting s value := (hr.setting s value).trans (hsame _)
  switch s := (hr.switch s).trans (exists_congr fun _ => hsame _)
  closed := hr.closed
  goesOn := hr.goesOn

theorem recordEntry (hr : p.Records given) (hfree : p.entry = none) (name : String) :
    { p with entry := some name }.Records (.entry name :: given) where
  entry name' := by simp [← hr.entry, hfree, eq_comm]
  setting s value := by simpa using hr.setting s value
  switch s := by simpa using hr.switch s
  closed := hr.closed
  goesOn := hr.goesOn

theorem recordSetting (hr : p.Records given) {s : Setting} (hfree : p.settings.lookup s = none)
    (value : String) :
    { p with settings := p.settings ++ [(s, value)] }.Records (.setting s value :: given) where
  entry name := by simpa using hr.entry name
  setting s' value' := by
    rw [List.lookup_append, List.mem_cons, ← hr.setting]
    by_cases h : s' = s
    · subst h
      simp [hfree, eq_comm]
    · have hbeside : [(s, value)].lookup s' = none := by simp [h]
      simp [hbeside, h]
  switch s' := by simpa using hr.switch s'
  closed := hr.closed
  goesOn := hr.goesOn

theorem recordSwitch (hr : p.Records given) {s : Switch} (spelling : Spelling s) :
    { p with switches := p.switches ++ [s] }.Records (.switch s spelling :: given) where
  entry name := by simpa using hr.entry name
  setting s' value := by simpa using hr.setting s' value
  switch s' := by
    rw [List.mem_append, hr.switch, List.mem_singleton]
    constructor
    · rintro (⟨spelling', hmember⟩ | rfl)
      · exact ⟨spelling', List.mem_cons_of_mem _ hmember⟩
      · exact ⟨spelling, List.mem_cons_self⟩
    · rintro ⟨spelling', hmember⟩
      obtain hsame | hmember := List.mem_cons.mp hmember
      · cases hsame
        exact Or.inr rfl
      · exact Or.inl ⟨spelling', hmember⟩
  closed := hr.closed
  goesOn := hr.goesOn

/-- An argument whose place is free is read and recorded. -/
theorem exists_readArg (hr : p.Records given) {a : Argument} (hplain : a.Plain)
    (hfree : a.slot ∉ given.map Argument.slot) :
    ∃ q, p.readArg a.text = .ok q ∧ q.Records (a :: given) := by
  have hother : ∀ b ∈ given, b.slot ≠ a.slot := fun b hmember hsame =>
    hfree (List.mem_map.mpr ⟨b, hmember, hsame⟩)
  cases a with
  | entry name =>
    have hnone : p.entry = none := by
      rw [Option.eq_none_iff_forall_ne_some]
      intro name' htaken
      exact hother _ ((hr.entry name').mp htaken) rfl
    exact ⟨_, readArg_text_entry hr.goesOn hr.closed hplain hnone, hr.recordEntry hnone name⟩
  | setting s value =>
    have hnone : p.settings.lookup s = none := by
      rw [Option.eq_none_iff_forall_ne_some]
      intro value' htaken
      exact hother _ ((hr.setting s value').mp htaken) rfl
    exact ⟨_, readArg_text_setting value hr.goesOn hr.closed hnone, hr.recordSetting hnone value⟩
  | switch s spelling =>
    have habsent : s ∉ p.switches := by
      intro htaken
      obtain ⟨spelling', hmember⟩ := (hr.switch s).mp htaken
      exact hother _ hmember rfl
    exact ⟨_, readArg_text_switch spelling hr.goesOn hr.closed hplain habsent, hr.recordSwitch spelling⟩

/-- Arguments for different places are all read and recorded, in any order. -/
theorem exists_foldlM (hr : p.Records given) {as : List Argument} (hplain : ∀ a ∈ as, a.Plain)
    (hapart : ((as ++ given).map Argument.slot).Nodup) :
    ∃ q, (as.map Argument.text).foldlM readArg p = .ok q ∧ q.Records (as ++ given) := by
  induction as generalizing p given with
  | nil => exact ⟨p, rfl, hr⟩
  | cons a as ih =>
    -- the arguments read so far are a set: `a` may join them at the front
    have hmoved : (as ++ a :: given).Perm (a :: as ++ given) := List.perm_middle
    have hapart' : ((as ++ a :: given).map Argument.slot).Nodup :=
      (hmoved.map Argument.slot).nodup_iff.mpr hapart
    have hfree : a.slot ∉ given.map Argument.slot := by
      rw [List.cons_append, List.map_cons, List.nodup_cons, List.map_append, List.mem_append] at hapart
      exact fun htaken => hapart.1 (Or.inr htaken)
    obtain ⟨q, hread, hr'⟩ := hr.exists_readArg (hplain a List.mem_cons_self) hfree
    obtain ⟨q', hreads, hr''⟩ :=
      ih hr' (fun b hmember => hplain b (List.mem_cons_of_mem a hmember)) hapart'
    refine ⟨q', ?_, hr''.of_mem_iff fun b => hmoved.mem_iff⟩
    rw [List.map_cons, List.foldlM_cons, hread]
    exact hreads

end Records

end Parsed

end Command

/-! ### The arguments of a configuration -/

/-- The word that asks for the mode. -/
def TrapMode.flag? : TrapMode → Option String
  | none => Option.none
  | clamp => some "clamp"
  | js => some "js"

theorem TrapMode.ofFlag_flag? (mode : TrapMode) : ofFlag mode.flag? = mode := by
  cases mode <;> rfl

namespace Config

open Command

/-- The value that a setting has in a configuration. -/
def value? (config : Config) : Setting → Option String
  | .outFile => config.outputs.outFile
  | .binaryFile => config.outputs.binaryFile
  | .textFile => config.outputs.textFile
  | .asmjsFile => config.outputs.asmjsFile
  | .trapMode => config.trapMode.flag?

/-- The switch is on in a configuration. Two of them turn off what is done without them. -/
def turnsOn (config : Config) : Switch → Bool
  | .validate => config.validate
  | .optimize => config.optimize
  | .noTreeShaking => !config.treeShaking
  | .noDebug => !config.debugInfo
  | .verbose | .help | .version => false

/-- The run that a configuration asks for. -/
def invocation (config : Config) : Invocation where
  entry := config.entry
  outputs := config.outputs
  validate := config.validate
  optimize := config.optimize
  noTreeShaking := !config.treeShaking
  noDebug := !config.debugInfo
  trapMode := config.trapMode.flag?
  verbose := false

theorem config_invocation {config : Config} (hextension : config.extension = Path.sourceExtension) :
    config.invocation.config = config := by
  simp only [Invocation.config, invocation, TrapMode.ofFlag_flag?, Bool.not_not, ← hextension]

variable {config : Config} {spelling : (s : Switch) → Spelling s}

/-- The argument with which a configuration fills a place. -/
def argument? (config : Config) (spelling : (s : Switch) → Spelling s) :
    Option Opt → Option Argument
  | none => some (.entry config.entry)
  | some (.setting s) => (config.value? s).map (.setting s)
  | some (.switch s) => if config.turnsOn s then some (.switch s (spelling s)) else none

/-- The arguments that a configuration is written with. -/
def arguments (config : Config) (spelling : (s : Switch) → Spelling s) : List Argument :=
  (none :: Opt.all.map some).filterMap (config.argument? spelling)

theorem slot_of_argument? {place : Option Opt} {a : Argument}
    (h : config.argument? spelling place = some a) : a.slot = place := by
  match place with
  | none =>
    cases h
    rfl
  | some (.setting s) =>
    obtain ⟨value, -, rfl⟩ := Option.map_eq_some_iff.mp h
    rfl
  | some (.switch s) =>
    obtain ⟨-, hsame⟩ := Option.ite_none_right_eq_some.mp h
    cases hsame
    rfl

theorem mem_arguments_iff {a : Argument} :
    a ∈ config.arguments spelling ↔ config.argument? spelling a.slot = some a := by
  rw [arguments, List.mem_filterMap]
  constructor
  · rintro ⟨place, -, h⟩
    rwa [slot_of_argument? h]
  · intro h
    refine ⟨a.slot, ?_, h⟩
    cases a.slot with
    | none => exact List.mem_cons_self
    | some o => exact List.mem_cons_of_mem none (List.mem_map_of_mem o.mem_all)

theorem nodup_slot_arguments (config : Config) (spelling : (s : Switch) → Spelling s) :
    ((config.arguments spelling).map Argument.slot).Nodup := by
  have hplaces : (none :: Opt.all.map some).Nodup := by decide
  rw [arguments, List.map_filterMap]
  refine List.Nodup.filterMap ?_ hplaces
  intro place place' b h h'
  obtain ⟨a, hfilled, rfl⟩ := Option.map_eq_some_iff.mp h
  obtain ⟨a', hfilled', hsame⟩ := Option.map_eq_some_iff.mp h'
  rw [← slot_of_argument? hfilled, ← slot_of_argument? hfilled', hsame]

theorem plain_of_mem_arguments (hentry : config.entry.toList.head? ≠ some '-') :
    ∀ a ∈ config.arguments spelling, a.Plain := by
  intro a hmember
  have h := mem_arguments_iff.mp hmember
  cases a with
  | entry name =>
    cases h
    exact hentry
  | setting s value => trivial
  | switch s spelling' =>
    obtain ⟨hon, -⟩ := Option.ite_none_right_eq_some.mp h
    constructor <;> rintro rfl <;> cases hon

end Config

namespace Command

variable {config : Config} {spelling : (s : Switch) → Spelling s}

theorem Parsed.Records.invocation_eq {p : Parsed} (hr : p.Records (config.arguments spelling)) :
    p.invocation = .ok config.invocation := by
  have hentry : p.entry = some config.entry := (hr.entry _).mpr (Config.mem_arguments_iff.mpr rfl)
  have hsetting (s : Setting) : p.setting? s = config.value? s := by
    refine Option.ext fun value => ?_
    rw [setting?, hr.setting, Config.mem_arguments_iff]
    simp [Argument.slot, Config.argument?]
  have hswitch (s : Switch) : p.has s = config.turnsOn s := by
    rw [has, Bool.eq_iff_iff, List.contains_iff_mem, hr.switch]
    simp [Config.mem_arguments_iff, Argument.slot, Config.argument?]
  rw [Parsed.invocation, close_of_closed hr.closed]
  simp only [bind, Except.bind, hentry, hsetting, hswitch]
  rfl

/-- A configuration with the extension of sources whose entry does not start with a dash is read from
its arguments in whatever order they stand, with every switch in whatever spelling. -/
theorem readLine_perm_arguments (config : Config) (spelling : (s : Switch) → Spelling s)
    (hextension : config.extension = Path.sourceExtension)
    (hentry : config.entry.toList.head? ≠ some '-') (args : List String)
    (horder : args.Perm ((config.arguments spelling).map Argument.text)) :
    ∃ i, readLine args = .ok i ∧ i.config = config := by
  obtain ⟨as, rfl, hperm⟩ := (congrFun₂ (List.eq_map_comp_perm Argument.text) _ _).mpr horder
  have hplain (a : Argument) (hmember : a ∈ as) : a.Plain :=
    Config.plain_of_mem_arguments hentry a (hperm.mem_iff.mp hmember)
  have hapart : ((as ++ []).map Argument.slot).Nodup := by
    rw [List.append_nil]
    exact (hperm.map Argument.slot).nodup_iff.mpr (config.nodup_slot_arguments spelling)
  obtain ⟨p, hread, hr⟩ := Parsed.records_empty.exists_foldlM hplain hapart
  rw [List.append_nil] at hr
  refine ⟨config.invocation, ?_, Config.config_invocation hextension⟩
  rw [readLine, hread]
  exact (hr.of_mem_iff fun a => hperm.mem_iff).invocation_eq

/-- A configuration with all that its arguments can have, an empty path among it and paths that look
like options. -/
def fullConfig : Config where
  entry := "dir/a=b"
  extension := Path.sourceExtension
  validate := true
  optimize := true
  treeShaking := false
  debugInfo := false
  trapMode := .js
  outputs := ⟨some "", none, some "--help", some "a=-b"⟩

def mixedSpelling : (s : Switch) → Spelling s
  | .optimize => .short 'O' rfl
  | _ => .long

theorem fullConfig_read :
    ∃ i, readLine ["--noDebug", "--textFile=--help", "-O", "dir/a=b", "--asmjsFile=a=-b",
        "--noTreeShaking", "--outFile=", "--validate", "--trapMode=js"] = .ok i ∧
      i.config = fullConfig :=
  readLine_perm_arguments fullConfig mixedSpelling rfl (by decide) _ (by decide +kernel)

end Command

end Wasmline
