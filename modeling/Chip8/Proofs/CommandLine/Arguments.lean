import Chip8.CommandLine.Arguments
import Chip8.Proofs.Text.Integer

/-!
# Values attached to settings

A long name of a setting may carry its value behind an equals sign, whatever the value is. So a program text, a number
of cycles and a seed can be given to the command line like that, and all three are read as they were written, but for
a text of two dashes, which leaves its setting blank, and for numbers with too many digits. Main statements:
`read_attached` and `read_given`.
-/

namespace Chip8.CommandLine

variable {s : Setting} {name : String}

/-! ## One argument -/

/-- No setting has an equals sign in its name. -/
theorem not_mem_name : ∀ row ∈ Setting.named, '=' ∉ row.1.toList := by decide

theorem settingOf?_of_mem {cs : List Char} (h : '=' ∈ cs) : settingOf? cs = none := by
  rw [settingOf?, List.lookup_eq_none_iff]
  intro row hrow
  refine bne_iff_ne.2 fun heq => not_mem_name row hrow ?_
  rw [← heq, String.toList_ofList]
  exact h

theorem splitAtEquals_append {start : List Char} (h : '=' ∉ start) (value : List Char) :
    splitAtEquals (start ++ '=' :: value) = (start, some value) := by
  have hstart : ∀ c ∈ start, decide (c ≠ '=') = true := fun c hc => by
    refine decide_eq_true ?_
    rintro rfl
    exact h hc
  rw [splitAtEquals, List.dropWhile_append_of_pos hstart, List.takeWhile_append_of_pos hstart]
  simp

/-- A long name with a value attached. -/
theorem roleOf_attached {rest : List Char} (hlong : name.toList = '-' :: '-' :: rest) (hname : '=' ∉ name.toList)
    (hs : settingOf? name.toList = some s) (value : String) :
    roleOf (name ++ "=" ++ value) = .ok (.setting name.toList s (some value.toList)) := by
  have htext : (name ++ "=" ++ value).toList = name.toList ++ '=' :: value.toList := by simp
  have hnone : settingOf? (name.toList ++ '=' :: value.toList) = none := settingOf?_of_mem (by simp)
  have hsplit := splitAtEquals_append hname value.toList
  rw [hlong] at htext hnone hsplit hs ⊢
  simp only [roleOf, htext, List.cons_append] at hnone hsplit ⊢
  simp only [hnone, hsplit, hs]

/-- No argument with a value attached is two dashes. -/
theorem attached_ne_dashes (name value : String) : name ++ "=" ++ value ≠ "--" := by
  intro h
  have hmem : '=' ∈ (name ++ "=" ++ value).toList := by simp
  rw [h] at hmem
  exact absurd hmem (by decide)

theorem roles_attached {rest : List Char} (hlong : name.toList = '-' :: '-' :: rest) (hname : '=' ∉ name.toList)
    (hs : settingOf? name.toList = some s) (value : String) {more : List String} {tail : List (String × Role)}
    (hmore : roles more = .ok tail) :
    roles ((name ++ "=" ++ value) :: more) =
      .ok ((name ++ "=" ++ value, .setting name.toList s (some value.toList)) :: tail) := by
  rw [roles, if_neg (attached_ne_dashes name value), roleOf_attached hlong hname hs, hmore]
  rfl

/-! ## Arguments one after another -/

/-- A value attached to a setting that takes one is the value of that setting. -/
theorem readRoles_attached (hs : s.takesValue = true) (settings : Settings) (extras : List String) (argument : String)
    (name value : List Char) (rest : List (String × Role)) :
    readRoles settings extras ((argument, .setting name s (some value)) :: rest) =
      (apply settings s (String.ofList value)).bind fun settings => readRoles settings extras rest := by
  cases s <;> first | exact absurd hs (by decide) | (delta readRoles; rfl)

/-- **Three values attached**: a program text, a number of cycles and a seed. -/
theorem read_attached (text cycles seed : String) :
    read ["--hex" ++ "=" ++ text, "--max-cycles" ++ "=" ++ cycles, "--seed" ++ "=" ++ seed] =
      (apply {} .hex text).bind fun settings => (apply settings .maxCycles cycles).bind fun settings =>
        (apply settings .seed seed).bind fun settings =>
          if settings.rom.isEmpty && settings.hex.isEmpty then .error .nothingToRun else .ok (.run settings) := by
  have hseed : roles ["--seed" ++ "=" ++ seed] = _ :=
    roles_attached (s := .seed) rfl (by decide) (by decide) seed rfl
  have hcycles : roles ["--max-cycles" ++ "=" ++ cycles, "--seed" ++ "=" ++ seed] = _ :=
    roles_attached (s := .maxCycles) rfl (by decide) (by decide) cycles hseed
  have hhex : roles ["--hex" ++ "=" ++ text, "--max-cycles" ++ "=" ++ cycles, "--seed" ++ "=" ++ seed] = _ :=
    roles_attached (s := .hex) rfl (by decide) (by decide) text hcycles
  rw [read, hhex]
  show (readRoles {} [] _).bind _ = _
  rw [readRoles_attached rfl, String.ofList_toList]
  cases apply {} .hex text with
  | error e => rfl
  | ok settings =>
    show (readRoles settings [] _).bind _ = _
    rw [readRoles_attached rfl, String.ofList_toList, Except.bind]
    cases apply settings .maxCycles cycles with
    | error e => rfl
    | ok settings =>
      show (readRoles settings [] _).bind _ = _
      rw [readRoles_attached rfl, String.ofList_toList, Except.bind]
      cases apply settings .seed seed with
      | error e => rfl
      | ok settings => rfl

/-! ## Values as they are written -/

theorem decimal_ne_blankValue (n : Int) : Text.decimal n ≠ blankValue := by
  intro h
  have hdash : '-' ∈ Nat.toDigits 10 n.natAbs := by
    have hlist := (Text.toList_decimal n).symm.trans (congrArg String.toList h)
    split at hlist
    · have hdigits : Nat.toDigits 10 n.natAbs = ['-'] := List.cons_inj_right '-' |>.1 hlist
      simp [hdigits]
    · have hdigits : Nat.toDigits 10 n.natAbs = ['-', '-'] := hlist
      simp [hdigits]
  exact absurd (Text.isDigit_of_mem_toDigits hdash) (by decide)

theorem numberOf_decimal {n : Int} (h : n.natAbs < 10 ^ Text.digitLimit) (s : Setting) :
    numberOf s (Text.decimal n) = .ok (some n) := by
  rw [numberOf, if_neg (decimal_ne_blankValue n), Text.readInteger_decimal h]

theorem numberOf_of_long {n : Int} (h : 10 ^ Text.digitLimit ≤ n.natAbs) (s : Setting) :
    numberOf s (Text.decimal n) = .error (.notANumber s (Text.decimal n)) := by
  obtain ⟨count, hread⟩ := Text.readInteger_of_long h
  rw [numberOf, if_neg (decimal_ne_blankValue n), hread]

/-- The arguments that give a program text, a number of cycles and a seed. -/
def given (text : String) (cycles seed : Int) : List String :=
  ["--hex=" ++ text, "--max-cycles=" ++ Text.decimal cycles, "--seed=" ++ Text.decimal seed]

theorem read_given_eq (text : String) (cycles seed : Int) :
    read (given text cycles seed) =
      (numberOf .maxCycles (Text.decimal cycles)).bind fun maxCycles =>
        (numberOf .seed (Text.decimal seed)).bind fun seed =>
          if (textOf text).isEmpty then .error .nothingToRun
          else .ok (.run { hex := textOf text, maxCycles, seed := .given seed }) := by
  have hread := read_attached text (Text.decimal cycles) (Text.decimal seed)
  rw [show "--hex" ++ "=" = "--hex=" from rfl, show "--max-cycles" ++ "=" = "--max-cycles=" from rfl,
    show "--seed" ++ "=" = "--seed=" from rfl] at hread
  rw [given, hread]
  simp only [apply, Except.bind, Except.map]
  cases numberOf .maxCycles (Text.decimal cycles) with
  | error e => rfl
  | ok maxCycles =>
    cases numberOf .seed (Text.decimal seed) with
    | error e => rfl
    | ok seed => rfl

/-- A number with too many digits is not read. -/
theorem read_given_of_long (text : String) {cycles seed : Int}
    (hlong : 10 ^ Text.digitLimit ≤ cycles.natAbs ∨ 10 ^ Text.digitLimit ≤ seed.natAbs) :
    ∃ e, read (given text cycles seed) = .error e := by
  rw [read_given_eq]
  rcases Nat.lt_or_ge cycles.natAbs (10 ^ Text.digitLimit) with hcycles | hcycles
  · have hseed := hlong.resolve_left (Nat.not_le_of_lt hcycles)
    rw [numberOf_decimal hcycles, numberOf_of_long hseed]
    exact ⟨_, rfl⟩
  · rw [numberOf_of_long hcycles]
    exact ⟨_, rfl⟩

/-- **What was given is read.** -/
theorem read_given {text : String} (hempty : text ≠ "") (hdashes : text ≠ "--") {cycles seed : Int}
    (hcycles : cycles.natAbs < 10 ^ Text.digitLimit) (hseed : seed.natAbs < 10 ^ Text.digitLimit) :
    read (given text cycles seed) = .ok (.run { hex := text, maxCycles := some cycles, seed := .number seed }) := by
  have htext : textOf text = text := if_neg hdashes
  rw [read_given_eq, numberOf_decimal hcycles, numberOf_decimal hseed, htext]
  simp [Except.bind, hempty, Seed.given]

end Chip8.CommandLine
