import StraightWasm.Listing
import StraightWasm.Proofs.Text.SnakeCase

/-!
# Reading a listing back

A listing shows all of the code that it was made from: the functions of a program, each with the
number of registers that it touches and with its instructions, can be read off the text
(`Listing.recover`), whatever the module calls them. Of the conversion that makes labels from names
nothing is asked but that it joins lowercase forms of letters and numbers, and that these are plain.

Each line shows by its first character what it is. An empty line separates functions, a line that
starts with spaces holds an instruction, and any other line opens a function, because a label is not
empty and has plain characters only (`Listing.plain_label`). For the same reason the first semicolon
of such a line is the one before the number of registers, and a line ends only where it was ended.
-/

set_option autoImplicit false
set_option relaxedAutoImplicit false

namespace StraightWasm.Listing

open Machine Text

variable {convert : String → String}

/-! ### Labels -/

theorem plain_of_isDigit {character : Char} (h : character.isDigit) : Plain character := by
  refine ⟨?_, ?_, ?_⟩ <;> rintro rfl <;> revert h <;> decide

theorem isDigit_of_mem_toString {value : Nat} {character : Char}
    (h : character ∈ (toString value).toList) : character.isDigit := by
  rw [Nat.toString_eq_repr, Nat.toList_repr] at h
  exact Nat.isDigit_of_mem_toDigits (by decide) (by decide) h

theorem plain_anonymousLabel {index : Nat} {character : Char}
    (h : character ∈ (anonymousLabel index).toList) : Plain character := by
  rw [anonymousLabel, String.toList_append, List.mem_append] at h
  obtain h | h := h
  · have hstem : ∀ letter ∈ "func_".toList, Plain letter := by simp [Plain]
    exact hstem character h
  · exact plain_of_isDigit (isDigit_of_mem_toString h)

theorem anonymousLabel_ne_empty (index : Nat) : anonymousLabel index ≠ "" := by
  simp [anonymousLabel]

/-- A label is taken from the name of an export or made up, and either way it is not empty. -/
theorem label_cases (convert : String → String) (module : Module) (index : Nat) :
    label module index convert = anonymousLabel index ∨
      ∃ name, label module index convert = convert name ∧ convert name ≠ "" := by
  unfold label
  split
  next name _ =>
    by_cases hempty : (convert name).isEmpty
    · exact .inl (if_pos hempty)
    · exact .inr ⟨name, if_neg hempty, by simpa using hempty⟩
  · exact .inl rfl

theorem label_ne_empty (convert : String → String) (module : Module) (index : Nat) :
    label module index convert ≠ "" := by
  obtain hlabel | ⟨name, hlabel, hname⟩ := label_cases convert module index
  · rw [hlabel]
    exact anonymousLabel_ne_empty index
  · rwa [hlabel]

theorem plain_label (hplain : ConvertsPlainly convert) {module : Module} {index : Nat}
    {character : Char} (h : character ∈ (label module index convert).toList) :
    Plain character := by
  obtain hlabel | ⟨name, hlabel, -⟩ := label_cases convert module index
  · rw [hlabel] at h
    exact plain_anonymousLabel h
  · rw [hlabel] at h
    exact hplain name character h

/-! ### Reading numbers -/

/-- The number at the front of a text, and what follows its digits. -/
def number (text : List Char) : Nat × List Char :=
  (Nat.ofDigitChars 10 (text.takeWhile Char.isDigit) 0, text.dropWhile Char.isDigit)

/-- The number that a text consists of, with its sign if it is negative. -/
def integer : List Char → Int
  | '-' :: digits => -(number digits).1
  | digits => (number digits).1

theorem number_append (value : Nat) {rest : List Char}
    (hrest : ∀ character ∈ rest.head?, ¬character.isDigit) :
    number ((toString value).toList ++ rest) = (value, rest) := by
  have hdigits : ∀ digit ∈ (toString value).toList, digit.isDigit := fun _ hdigit ↦
    isDigit_of_mem_toString hdigit
  have htake : rest.takeWhile Char.isDigit = [] := by
    cases rest <;> simp_all
  have hdrop : rest.dropWhile Char.isDigit = rest := by
    cases rest <;> simp_all
  rw [number, List.takeWhile_append_of_pos hdigits, List.dropWhile_append_of_pos hdigits, htake,
    hdrop, List.append_nil, Nat.toString_eq_repr, Nat.toList_repr, Nat.ofDigitChars_ten_toDigits]

theorem number_toString (value : Nat) : number (toString value).toList = (value, []) := by
  have hnumber := @number_append value [] (by simp)
  rwa [List.append_nil] at hnumber

theorem toString_eq_cons (value : Nat) :
    ∃ digit digits, (toString value).toList = digit :: digits ∧ digit.isDigit := by
  have hne : (toString value).toList ≠ [] := by simp
  obtain ⟨digit, digits, hdigits⟩ := List.exists_cons_of_ne_nil hne
  exact ⟨digit, digits, hdigits, isDigit_of_mem_toString (hdigits ▸ List.mem_cons_self)⟩

/-- A number is written as its digits, after a sign if it is negative. -/
theorem toList_toString_int (value : Int) :
    (0 ≤ value ∧ (toString value).toList = (toString value.toNat).toList) ∨
      (value < 0 ∧ (toString value).toList = '-' :: (toString (-value).toNat).toList) := by
  rw [Int.toString_eq_repr, Int.repr_eq_if]
  by_cases hvalue : 0 ≤ value
  · exact .inl ⟨hvalue, by rw [if_pos hvalue]; rfl⟩
  · refine .inr ⟨by omega, ?_⟩
    rw [if_neg hvalue, String.toList_append]
    rfl

theorem integer_toString (value : Int) : integer (toString value).toList = value := by
  obtain ⟨hvalue, htext⟩ | ⟨hvalue, htext⟩ := toList_toString_int value
  · obtain ⟨digit, digits, hdigits, hdigit⟩ := toString_eq_cons value.toNat
    have hsign : digit ≠ '-' := by
      rintro rfl
      revert hdigit
      decide
    have hnumber := number_toString value.toNat
    rw [htext, hdigits, integer, ← hdigits, hnumber]
    · exact Int.toNat_of_nonneg hvalue
    · simpa using hsign
  · rw [htext, integer, number_toString]
    have hpos := Int.toNat_of_nonneg (Int.neg_nonneg_of_nonpos (Int.le_of_lt hvalue))
    omega

/-! ### Reading instructions -/

/-- What stands behind the comma of an instruction: a register or a constant. -/
def operand : List Char → Nat ⊕ Int32
  | 'r' :: digits => .inl (number digits).1
  | digits => .inr (Int32.ofInt (integer digits))

/-- The register and the operand of an instruction that has both. -/
def operands? (text : List Char) : Option (Nat × (Nat ⊕ Int32)) :=
  match number text with
  | (dest, ',' :: ' ' :: text) => some (dest, operand text)
  | _ => none

/-- The instruction that a text stands for. -/
def instruction? : List Char → Option Instr
  | ['u', 'd', '2'] => some .trap
  | 'r' :: 'e' :: 't' :: ' ' :: 'r' :: text => some (.ret (number text).1)
  | 'a' :: 'd' :: 'd' :: ' ' :: 'r' :: text =>
    match operands? text with
    | some (dest, .inl source) => some (.add dest source)
    | _ => none
  | 'm' :: 'o' :: 'v' :: ' ' :: 'r' :: text =>
    -- A constant has no register's letter in front, which alone tells the two moves apart.
    match operands? text with
    | some (dest, .inl source) => some (.move dest source)
    | some (dest, .inr value) => some (.load dest value)
    | none => none
  | _ => none

theorem operand_register (register : Nat) :
    operand (registerName register).toList = .inl register := by
  have htext : (registerName register).toList = 'r' :: (toString register).toList := by
    simp [registerName]
  rw [htext, operand, number_toString]

theorem operand_constant (value : Int32) :
    operand (toString value.toInt).toList = .inr value := by
  have hread : Int32.ofInt (integer (toString value.toInt).toList) = value := by
    rw [integer_toString, Int32.ofInt_toInt]
  obtain ⟨-, htext⟩ | ⟨-, htext⟩ := toList_toString_int value.toInt
  · obtain ⟨digit, digits, hdigits, hdigit⟩ := toString_eq_cons value.toInt.toNat
    have hregister : digit ≠ 'r' := by
      rintro rfl
      revert hdigit
      decide
    rw [htext, hdigits] at hread ⊢
    rw [operand, hread]
    simpa using hregister
  · rw [htext] at hread ⊢
    rw [operand, hread]
    simp

theorem operands?_append (dest : Nat) (text : List Char) :
    operands? ((toString dest).toList ++ ',' :: ' ' :: text) = some (dest, operand text) := by
  rw [operands?, number_append dest (by simp)]
  rfl

/-- No two instructions have the same text. -/
theorem instruction?_text (instruction : Instr) :
    instruction? instruction.text.toList = some instruction := by
  cases instruction with
  | load dest value =>
    have htext : (Instr.load dest value).text.toList = 'm' :: 'o' :: 'v' :: ' ' :: 'r' ::
        ((toString dest).toList ++ ',' :: ' ' :: (toString value.toInt).toList) := by
      simp [Instr.text, registerName]
    rw [htext, instruction?, operands?_append, operand_constant]
  | move dest source =>
    have htext : (Instr.move dest source).text.toList = 'm' :: 'o' :: 'v' :: ' ' :: 'r' ::
        ((toString dest).toList ++ ',' :: ' ' :: (registerName source).toList) := by
      simp [Instr.text, registerName]
    rw [htext, instruction?, operands?_append, operand_register]
  | add dest source =>
    have htext : (Instr.add dest source).text.toList = 'a' :: 'd' :: 'd' :: ' ' :: 'r' ::
        ((toString dest).toList ++ ',' :: ' ' :: (registerName source).toList) := by
      simp [Instr.text, registerName]
    rw [htext, instruction?, operands?_append, operand_register]
  | ret source =>
    have htext : (Instr.ret source).text.toList =
        'r' :: 'e' :: 't' :: ' ' :: 'r' :: (toString source).toList := by
      simp [Instr.text, registerName]
    rw [htext, instruction?, number_toString]
  | trap => rfl

/-! ### Reading lines -/

/-- What the end of a listing holds: instructions of a function that was opened before, and whole
functions. -/
structure Ending where
  code : List Instr := []
  functions : List (Nat × List Instr) := []

/-- The number of registers that the first line of a function tells, behind a semicolon. -/
def registerCount? (line : List Char) : Option Nat :=
  match line.dropWhile (· ≠ ';') with
  | ';' :: ' ' :: text => some (number text).1
  | _ => none

/-- Takes a line in front of what follows it. -/
def gather (line : List Char) (following : Option Ending) : Option Ending :=
  match line with
  | [] => following
  | ' ' :: ' ' :: ' ' :: ' ' :: text => do
    let instruction ← instruction? text
    let ending ← following
    return { ending with code := instruction :: ending.code }
  | line => do
    let registerCount ← registerCount? line
    let ending ← following
    return { functions := (registerCount, ending.code) :: ending.functions }

/-- The functions that a listing shows, each with the number of registers that it touches and with
its instructions. -/
def recover (text : String) : Option (List (Nat × List Instr)) := do
  match ← (text.toList.splitOn '\n').foldr gather (some {}) with
  | ⟨[], functions⟩ => return functions
  | _ => none

/-- What a listing shows of a program. -/
def contents (program : Program) : List (Nat × List Instr) :=
  program.functions.toList.map fun record ↦ (record.registerCount, program.codeOf record)

theorem gather_instruction (instruction : Instr) (ending : Ending) :
    gather ("    " ++ instruction.text).toList (some ending) =
      some { ending with code := instruction :: ending.code } := by
  have htext : ("    " ++ instruction.text).toList =
      ' ' :: ' ' :: ' ' :: ' ' :: instruction.text.toList := by
    simp
  rw [htext, gather, instruction?_text]
  rfl

theorem registerCount?_heading (hplain : ConvertsPlainly convert) (module : Module)
    (record : FunctionRecord) :
    registerCount? (heading convert module record).toList = some record.registerCount := by
  have htext : (heading convert module record).toList =
      ((label module record.index convert).toList ++ ":  ".toList) ++
        ';' :: ' ' :: ((toString record.registerCount).toList ++ " register(s)".toList) := by
    simp [heading]
  have hlabel : ∀ character ∈ (label module record.index convert).toList ++ ":  ".toList,
      decide (character ≠ ';') := by
    have hcolon : ∀ character ∈ ":  ".toList, character ≠ ';' := by simp
    intro character hmem
    obtain hmem | hmem := List.mem_append.mp hmem
    · exact decide_eq_true (plain_label hplain hmem).2.2
    · exact decide_eq_true (hcolon character hmem)
  have hnumber := @number_append record.registerCount " register(s)".toList (by simp)
  rw [htext, registerCount?, List.dropWhile_append_of_pos hlabel]
  exact congrArg (fun found ↦ some found.1) hnumber

theorem gather_heading (hplain : ConvertsPlainly convert) (module : Module)
    (record : FunctionRecord) (ending : Ending) :
    gather (heading convert module record).toList (some ending) =
      some { functions := (record.registerCount, ending.code) :: ending.functions } := by
  have hcount := registerCount?_heading hplain module record
  have hne : (label module record.index convert).toList ≠ [] := by
    simpa using label_ne_empty convert module record.index
  obtain ⟨first, others, hlabel⟩ := List.exists_cons_of_ne_nil hne
  -- The line starts with the label, so it is not taken for an instruction.
  have hspace : first ≠ ' ' := (plain_label hplain (hlabel ▸ List.mem_cons_self)).2.1
  obtain ⟨rest, htext⟩ : ∃ rest, (heading convert module record).toList = first :: rest := by
    simp [heading, hlabel]
  rw [htext] at hcount ⊢
  rw [gather, hcount]
  · rfl
  · simp
  · intro text hspaces
    exact hspace (List.head_eq_of_cons_eq hspaces)

/-! ### Reading functions -/

theorem foldr_gather_code (code : List Instr) (functions : List (Nat × List Instr)) :
    (code.map fun instruction ↦ ("    " ++ instruction.text).toList).foldr gather
        (some ⟨[], functions⟩) =
      some ⟨code, functions⟩ := by
  induction code with
  | nil => rfl
  | cons instruction code ih => rw [List.map_cons, List.foldr_cons, ih, gather_instruction]

/-- The lines of a function add the function. -/
theorem foldr_gather_block (hplain : ConvertsPlainly convert) (module : Module) (program : Program)
    (record : FunctionRecord) (functions : List (Nat × List Instr)) :
    ((block convert module program record).map String.toList).foldr gather (some ⟨[], functions⟩) =
      some ⟨[], (record.registerCount, program.codeOf record) :: functions⟩ := by
  have hcode := foldr_gather_code (program.codeOf record) functions
  rw [block, List.map_cons, List.map_map, List.foldr_cons]
  exact (congrArg _ hcode).trans
    (gather_heading hplain module record ⟨program.codeOf record, functions⟩)

/-- The lines of all functions add all functions, in order. -/
theorem foldr_gather_lines (hplain : ConvertsPlainly convert) (module : Module) (program : Program)
    (records : List FunctionRecord) :
    (([""].intercalate (records.map (block convert module program))).map String.toList).foldr gather
        (some {}) =
      some { functions :=
        records.map fun record ↦ (record.registerCount, program.codeOf record) } := by
  induction records with
  | nil => rfl
  | cons record records ih =>
    cases records with
    | nil =>
      rw [List.map_singleton, List.intercalate_singleton]
      exact foldr_gather_block hplain module program record []
    | cons next records =>
      rw [List.map_cons, List.map_cons, List.intercalate_cons_cons, ← List.map_cons,
        List.map_append, List.foldr_append, ih, List.map_append, List.foldr_append]
      exact foldr_gather_block hplain module program record _

/-! ### Reading texts -/

theorem newline_not_mem_toDigits (value : Nat) : '\n' ∉ Nat.toDigits 10 value := by
  rw [← Nat.toList_repr, ← Nat.toString_eq_repr]
  exact fun hmem ↦ (plain_of_isDigit (isDigit_of_mem_toString hmem)).1 rfl

theorem newline_not_mem_repr (value : Int) : '\n' ∉ value.repr.toList := by
  rw [Int.repr_eq_if]
  split <;> simp [newline_not_mem_toDigits]

theorem newline_not_mem_text (instruction : Instr) : '\n' ∉ instruction.text.toList := by
  cases instruction <;>
    simp [Instr.text, registerName, newline_not_mem_toDigits, newline_not_mem_repr]

theorem newline_not_mem_heading (hplain : ConvertsPlainly convert) (module : Module)
    (record : FunctionRecord) : '\n' ∉ (heading convert module record).toList := by
  have hlabel : '\n' ∉ (label module record.index convert).toList :=
    fun hmem ↦ (plain_label hplain hmem).1 rfl
  simp [heading, hlabel, newline_not_mem_toDigits]

theorem newline_not_mem_lines (hplain : ConvertsPlainly convert) {module : Module}
    {program : Program} {line : String} (h : line ∈ lines convert module program) :
    '\n' ∉ line.toList := by
  obtain rfl | ⟨_, hblock, hline⟩ := mem_intercalate h
  · decide
  · obtain ⟨record, -, rfl⟩ := List.mem_map.mp hblock
    obtain rfl | hline := List.mem_cons.mp hline
    · exact newline_not_mem_heading hplain module record
    · obtain ⟨instruction, -, rfl⟩ := List.mem_map.mp hline
      simp [newline_not_mem_text]

theorem splitOn_join {texts : List String} (h : ∀ text ∈ texts, '\n' ∉ text.toList) :
    (String.join (texts.map (· ++ "\n"))).toList.splitOn '\n' =
      texts.map String.toList ++ [[]] := by
  rw [String.toList_join]
  induction texts with
  | nil => rfl
  | cons text texts ih =>
    obtain ⟨htext, htexts⟩ := List.forall_mem_cons.mp h
    have hsplit := List.splitOn_append_cons_self_of_not_mem htext
      ((texts.map (· ++ "\n")).flatMap String.toList)
    simp only [List.map_cons, List.flatMap_cons, String.toList_append, List.append_assoc,
      List.cons_append, ← ih htexts]
    exact hsplit

theorem recover_render (hplain : ConvertsPlainly convert) (module : Module) (program : Program) :
    recover (render module program convert) = some (contents program) := by
  have hlines := foldr_gather_lines hplain module program program.functions.toList
  have hsplit := splitOn_join fun line (hline : line ∈ lines convert module program) ↦
    newline_not_mem_lines hplain hline
  rw [recover, render, hsplit, List.foldr_append]
  simp only [List.foldr_cons, List.foldr_nil, gather]
  rw [lines, hlines]
  rfl

example :
    recover "f:  ; 2 register(s)\n    mov r0, -7\n    mov r1, r0\n\nfunc_1:  ; 0 register(s)\n" =
      some [(2, [.load 0 (-7), .move 1 0]), (0, [])] := by
  decide

/-- Assumes: a conversion that joins lowercase forms of letters and numbers of a name by
underscores, and that no lowercase form of a letter or number is a line break, a space or a
semicolon. Then the listing of a program loses no code. It can be read back, function by function
with registers and instructions, so programs with the same listing have the same code, whatever the
labels are. A label is not empty, has no line break in it and does not start with a space. -/
theorem render_lossless {alphanumeric : Char → Prop} {lowered : Char → Char → Prop}
    (hjoins : JoinsLowered alphanumeric lowered convert)
    (hlowered : LowersPlainly alphanumeric lowered) :
    (∀ (module : Module) (program : Program),
      recover (render module program convert) = some (contents program)) ∧
    (∀ (first second : Module) (program other : Program),
      render first program convert = render second other convert →
        contents program = contents other) ∧
    ∀ (module : Module) (index : Nat),
      label module index convert ≠ "" ∧ '\n' ∉ (label module index convert).toList ∧
        (label module index convert).toList.head? ≠ some ' ' := by
  have hplain := hjoins.convertsPlainly hlowered
  refine ⟨recover_render hplain, ?_, ?_⟩
  · intro first second program other hrender
    have hcontents : some (contents program) = some (contents other) := by
      rw [← recover_render hplain first, hrender, recover_render hplain]
    exact Option.some.inj hcontents
  · intro module index
    refine ⟨label_ne_empty convert module index, fun hmem ↦ ?_, fun hhead ↦ ?_⟩
    · exact (plain_label hplain hmem).1 rfl
    · exact (plain_label hplain (List.mem_of_head? hhead)).2.1 rfl

/-- Exports of two functions, behind an imported one. Of the name of the second nothing is left in
snake case. -/
def interface : Module where
  imports := [⟨"host", "log", .func 0⟩]
  exports := [⟨"sumΑΣ; HTTPPort2\n", .func, 1⟩, ⟨" +\n;", .func, 2⟩]

/-- The code of the two functions and of a third one that has no name. -/
def shown : Program where
  instructions := #[.load 0 (-7), .move 1 0, .ret 1, .trap, .ret 0]
  functions := #[⟨0, 0, 3, 2⟩, ⟨1, 3, 4, 0⟩, ⟨2, 4, 5, 1⟩]

/-- The conversion to snake case is such a conversion. It leaves no room for a line break or a
semicolon of a name. -/
theorem render_lossless_interface :
    JoinsLowered (isAlphanumeric ·) Lowers snakeCase ∧ LowersPlainly (isAlphanumeric ·) Lowers ∧
      render interface shown snakeCase =
        "sum_ας_http_port2:  ; 2 register(s)\n    mov r0, -7\n    mov r1, r0\n    ret r1\n\n" ++
          "func_1:  ; 0 register(s)\n    ud2\n\nfunc_2:  ; 1 register(s)\n    ret r0\n" ∧
      recover (render interface shown snakeCase) =
        some [(2, [.load 0 (-7), .move 1 0, .ret 1]), (0, [.trap]), (1, [.ret 0])] := by
  refine ⟨joinsLowered_snakeCase, lowersPlainly, by decide +kernel, ?_⟩
  rw [(render_lossless joinsLowered_snakeCase lowersPlainly).1]
  decide

end StraightWasm.Listing
