import Mathlib
import Pigeon.Native.Console
import Pigeon.Proofs.Execution.Expr
import Pigeon.Proofs.Text.Number
import Pigeon.Proofs.Token.Render

/-!
# What was printed can be prompted for

Every value is printed on a line of its own, and the prompt of its type reads it back from that line
(`Console.printed_prompted`). Floats are the exception that has to be assumed: their texts are read
by another algorithm than the one that writes them.
-/

namespace Pigeon

/-! ## Numbers are read back -/

namespace Numeral

/-- The value of a decimal digit is its place behind zero. -/
theorem digitValue?_of_isDigit {c : Char} (h : c.isDigit) :
    Text.digitValue? c = some (c.toNat - '0'.toNat) := by
  have hbounds : 48 ≤ c.toNat ∧ c.toNat ≤ 57 := by
    simpa [Char.isDigit, UInt32.le_iff_toNat_le] using h
  rw [Text.digitValue?, if_pos (by omega), if_pos h]
  rfl

/-- The digits of a number stand for it. -/
theorem digitsValue_toDigits (n : Nat) : Token.digitsValue (Nat.toDigits 10 n) = n := by
  have hfold : ∀ cs : List Char, (∀ c ∈ cs, c.isDigit) → ∀ k,
      (cs.filterMap Text.digitValue?).foldl (fun n d => 10 * n + d) k =
        Nat.ofDigitChars 10 cs k := by
    intro cs
    induction cs with
    | nil => exact fun _ _ => rfl
    | cons c cs ih =>
        intro h k
        rw [List.filterMap_cons_some (digitValue?_of_isDigit (h c List.mem_cons_self)),
          List.foldl_cons, Nat.ofDigitChars_cons, ih fun c hc => h c (List.mem_cons_of_mem _ hc)]
  have hdigits : ∀ c ∈ Nat.toDigits 10 n, c.isDigit = true := fun c hc =>
    Nat.isDigit_of_mem_toDigits (by decide) (by decide) hc
  rw [Token.digitsValue, ofDigits, hfold _ hdigits, Nat.ofDigitChars_ten_toDigits]

/-- The text of an integer that is not too long for a numeral is the numeral of that integer. -/
theorem readInt_toString {n : Int} (h : n.natAbs < 10 ^ maxDigits) :
    readInt (toString n) = .ok n := by
  have hdigits : ∀ c ∈ Nat.toDigits 10 n.natAbs, (Text.digitValue? c).isSome := fun c hc => by
    rw [digitValue?_of_isDigit (Nat.isDigit_of_mem_toDigits (by decide) (by decide) hc)]
    rfl
  have hlength : ¬ maxDigits < (Nat.toDigits 10 n.natAbs).length :=
    Nat.not_lt.mpr ((Nat.length_toDigits_le_iff (by decide) (by decide)).mpr h)
  have hempty := Token.isEmpty_filterMap_digitValue? Nat.toDigits_ne_nil hdigits
  have hsign : readSign (toString n).toList = (decide (n < 0), Nat.toDigits 10 n.natAbs) := by
    rw [Text.toList_toString]
    by_cases hneg : n < 0
    · rw [if_pos hneg, decide_eq_true hneg]
      rfl
    · rw [if_neg hneg, decide_eq_false hneg, List.nil_append]
      obtain ⟨d, ds, hds⟩ := List.exists_cons_of_ne_nil (Nat.toDigits_ne_nil (b := 10))
      rw [hds] at hdigits ⊢
      exact Token.readSign_cons (hdigits d List.mem_cons_self) ds
  have hvalue := digitsValue_toDigits n.natAbs
  unfold Token.digitsValue at hvalue
  simp only [readInt, hsign, Token.readDigits_eq hdigits, hempty, hvalue,
    Token.length_filterMap_digitValue? hdigits, if_neg hlength]
  refine congrArg Except.ok ?_
  by_cases hneg : n < 0
  · rw [if_pos (decide_eq_true hneg)]
    omega
  · rw [if_neg (by simpa using hneg)]
    omega

/-- There is one undefined number only. -/
theorem eq_nan_of_isNaN {x : Float} (h : x.isNaN = true) : x = 0.0 / 0.0 := by
  have heq : ∀ y : Float, y.isNaN = true → y = Float.nan := fun y hy => by
    rw [Float.isNaN_eq_decide_eq_nan] at hy
    exact of_decide_eq_true hy
  have hnan : (0.0 / 0.0 : Float).isNaN = true := by decide +kernel
  exact (heq x h).trans (heq _ hnan).symm

/-- What is not a number is read back as such. -/
theorem readFloat_nan : readFloat (Value.floatText (0.0 / 0.0)) = .ok (0.0 / 0.0) := by
  have htext : Value.floatText (0.0 / 0.0) = "nan" := by decide +kernel
  rw [htext]
  rfl

end Numeral

/-! ## Lines -/

/-- A line ends at the first line feed. -/
theorem Host.splitLine_append {line : List Char} (h : '\n' ∉ line) (rest : List Char) :
    splitLine (line ++ '\n' :: rest) = (line, rest) := by
  have hall : ∀ c ∈ line, decide (c ≠ '\n') = true := by
    intro c hc
    refine decide_eq_true ?_
    rintro rfl
    exact h hc
  unfold splitLine
  rw [List.span_eq_takeWhile_dropWhile, List.takeWhile_append_of_pos hall,
    List.dropWhile_append_of_pos hall, List.takeWhile_cons_of_neg (by simp),
    List.dropWhile_cons_of_neg (by simp)]
  simp

/-- Nothing is removed from the end of a text whose last character stays. -/
theorem Text.trimEnd_eq {p : Char → Bool} {cs : List Char} (h : ∀ c ∈ cs.getLast?, p c = false) :
    trimEnd p cs = cs := by
  rw [← List.head?_reverse] at h
  have hdrop : cs.reverse.dropWhile p = cs.reverse := by
    cases hcs : cs.reverse with
    | nil => rfl
    | cons c rest =>
        rw [hcs] at h
        exact List.dropWhile_cons_of_neg (by simp [h c rfl])
  rw [trimEnd, hdrop, List.reverse_reverse]

/-- Nothing is removed from a text without blanks. -/
theorem Text.trim_eq {cs : List Char} (h : ∀ c ∈ cs, isBlank c = false) : trim cs = cs := by
  have hdrop : cs.dropWhile isBlank = cs := by
    cases cs with
    | nil => rfl
    | cons c rest => exact List.dropWhile_cons_of_neg (by simp [h c List.mem_cons_self])
  rw [trim, hdrop, trimEnd_eq fun c hc => h c (List.mem_of_getLast? hc)]

/-! ## Calls of natives -/

/-- The function that a native is in a global scope. -/
def NativeFunction.function (n : NativeFunction) : Function :=
  ⟨n.name, n.returns, n.parameters, .native n.callback⟩

/-- Calls the native function of a name. -/
def Natives.call (n : Natives) (name : String) (args : List Value) : Run Value :=
  match n.funcs.find? (·.name = name) with
  | some f => Run.callNative f.function f.callback args (args.map fun _ => none)
  | none => throw (.defect (.undeclaredFunction name) none)

/-- A call with one argument gives the payload of the callback as a value of the result type. -/
theorem Natives.call_ok {n : Natives} {f : NativeFunction} {name : String} {t : Ty}
    {arg v : Value} {p : Payload} {m : Machine} {host : Host}
    (hf : n.funcs.find? (·.name = name) = some f) (hparams : f.params = [t])
    (harg : t.accepts arg.ty) (hrun : f.callback [arg] m.host = (.ok p, host))
    (hv : p.toValue f.returns = .ok v) :
    n.call name [arg] m = (.ok v, { m with host := host }) := by
  have hcheck : Run.checkNativeArguments f.name f.parameters [arg] [none] m = (.ok (), m) := by
    rw [NativeFunction.parameters, hparams]
    simp only [List.zipIdx_cons, List.zipIdx_nil, List.map_cons, List.map_nil,
      Run.checkNativeArguments, if_pos harg]
    rfl
  unfold Natives.call
  rw [hf]
  show Run.callNative f.function f.callback [arg] [none] m = _
  rw [Run.callNative, NativeFunction.function, Step.bind_ok hcheck, Step.bind_apply,
    Run.callback_apply, hrun]
  simp only [Run.nativeResult, hv]
  rfl

namespace Console

/-- The reader of a line for a type. -/
def reader : Ty → String → Except Failure Payload
  | .int => readInt
  | .float => readFloat
  | .bool => readBool
  | _ => fun line => .ok (.string line)

/-- The name of the prompt for a type. -/
def promptName : Ty → String
  | .int => "prompt_i"
  | .float => "prompt_f"
  | .bool => "prompt_b"
  | _ => "prompt"

/-- What a prompt reads from a line: the line without the line break at its end. -/
def content (line : List Char) : String :=
  String.ofList (Text.trimEnd (fun c => c = '\r' || c = '\n') line)

/-- Printing a value writes its line. -/
theorem call_print {v : Value} (hv : v.ty ≠ .void) (m : Machine) :
    natives.call "print" [v] m =
      (.ok .void, { m with host := m.host.write (v.text ++ "\n") }) := by
  have haccepts : Ty.any.accepts v.ty := by simp [Ty.accepts, hv]
  refine Natives.call_ok rfl rfl haccepts (p := .none) ?_ rfl
  simp [print, argument, Host.write, String.append_assoc]

/-- The prompt of a type takes a line from the input, and returns what is read from it. -/
theorem call_prompt {t : Ty} (ht : t ≠ .void ∧ t ≠ .any) (ask : String) {m : Machine}
    {line rest : List Char} (hinput : m.host.input = line ++ '\n' :: rest) (hline : '\n' ∉ line)
    {p : Payload} (hread : reader t (content line) = .ok p) {v : Value}
    (hv : p.toValue t = .ok v) :
    natives.call (promptName t) [.string ask] m =
      (.ok v, { m with host := { m.host with output := m.host.output ++ ask, input := rest } }) := by
  have hfind : natives.funcs.find? (·.name = promptName t) =
      some ⟨t, promptName t, prompting (reader t), [.string]⟩ := by
    cases t with
    | int | float | bool | string => rfl
    | void => exact absurd rfl ht.1
    | any => exact absurd rfl ht.2
  refine Natives.call_ok hfind rfl rfl ?_ hv
  simp only [prompting, argument, List.getElem?_cons_zero, Host.write, Host.readLine, hinput,
    Host.splitLine_append hline, Value.text]
  exact congrArg (·, _) hread

/-! ## Values and their lines -/

/-- A text without blanks is read from its own line. -/
theorem trimmed_content {s : String} (h : ∀ c ∈ s.toList, Text.isBlank c = false) :
    content s.toList = s ∧ trimmed s = s := by
  have hbreak : ∀ c, Text.isBlank c = false → (decide (c = '\r') || decide (c = '\n')) = false := by
    intro c hc
    simp only [Bool.or_eq_false_iff, decide_eq_false_iff_not]
    constructor <;> rintro rfl <;> exact absurd hc (by decide)
  constructor
  · rw [content, Text.trimEnd_eq fun c hc => hbreak c (h c (List.mem_of_getLast? hc)),
      String.ofList_toList]
  · rw [trimmed, Text.trim_eq h, String.ofList_toList]

/-- The texts of other values than strings have no blanks. -/
theorem not_isBlank_text {v : Value} (h : ∀ s, v ≠ .string s) :
    ∀ c ∈ v.text.toList, Text.isBlank c = false := by
  intro c hc
  cases v with
  | int n => exact Text.not_isBlank_of_mem_numberChars c (Text.toString_subset _ hc)
  | float x => exact Text.not_isBlank_of_mem_numberChars c (Decimal.Layout.text_subset _ x hc)
  | bool b =>
      have hall : ∀ c ∈ (Value.boolText b).toList, Text.isBlank c = false := by
        cases b with
        | false => exact List.all_iff_forall_prop.mp (by decide)
        | true => exact List.all_iff_forall_prop.mp (by decide)
      exact hall c hc
  | string s => exact absurd rfl (h s)
  | void => exact absurd hc (by simp [Value.text])

/-- The value can be printed on a line from which it is read back. -/
structure Printable (v : Value) : Prop where
  ne_void : v ≠ .void
  string : ∀ s, v = .string s → '\n' ∉ s.toList ∧ s.toList.getLast? ≠ some '\r'
  float : ∀ x, v = .float x → x.isNaN = false → Numeral.readFloat (Value.floatText x) = .ok x

/-- A printable value is printed on one line. -/
theorem Printable.newline_not_mem {v : Value} (h : Printable v) : '\n' ∉ v.text.toList := by
  by_cases hs : ∃ s, v = .string s
  · obtain ⟨s, rfl⟩ := hs
    exact (h.string s rfl).1
  · intro hmem
    exact absurd (not_isBlank_text (fun s hv => hs ⟨s, hv⟩) _ hmem) (by decide)

/-- A line that is a numeral when trimmed is read as its integer. -/
theorem readInt_of_ok {line : String} {n : Int} (h : Numeral.readInt (trimmed line) = .ok n) :
    readInt line = .ok (.int n) := by
  delta readInt
  rw [h]

/-- A line that is a numeral when trimmed is read as its float. -/
theorem readFloat_of_ok {line : String} {x : Float}
    (h : Numeral.readFloat (trimmed line) = .ok x) : readFloat line = .ok (.float x) := by
  delta readFloat
  rw [h]

/-- What is read from the line of a value is the value. -/
theorem Printable.reader_content {v : Value} (h : Printable v) :
    reader v.ty (content v.text.toList) = .ok v.payload ∧ v.payload.toValue v.ty = .ok v := by
  cases v with
  | void => exact absurd rfl h.ne_void
  | string s =>
      -- only the end of the line is cut off, so blanks around the text are kept
      obtain ⟨hline, hreturn⟩ := h.string s rfl
      have hlast : ∀ c ∈ s.toList.getLast?, (decide (c = '\r') || decide (c = '\n')) = false := by
        intro c hc
        simp only [Bool.or_eq_false_iff, decide_eq_false_iff_not]
        refine ⟨?_, ?_⟩
        · rintro rfl
          exact hreturn hc
        · rintro rfl
          exact hline (List.mem_of_getLast? hc)
      refine ⟨?_, rfl⟩
      simp only [Value.text, content, Text.trimEnd_eq hlast, String.ofList_toList]
      rfl
  | int n =>
      obtain ⟨hcontent, htrimmed⟩ := trimmed_content (not_isBlank_text (v := .int n) nofun)
      -- 64 bits have at most 19 digits
      have hsize : n.toInt.natAbs < 10 ^ Numeral.maxDigits := by
        have hlow := n.le_toInt
        have hhigh := n.toInt_lt
        have hbound : n.toInt.natAbs < 10 ^ 19 := by omega
        exact hbound.trans_le (Nat.pow_le_pow_right (by decide) (by decide))
      constructor
      · have hread : Numeral.readInt (trimmed (Value.int n).text) = .ok n.toInt := by
          rw [htrimmed, Value.text, Numeral.readInt_toString hsize]
        have hreader : reader (Value.int n).ty = readInt := rfl
        rw [hcontent, hreader, readInt_of_ok hread]
        rfl
      · exact congrArg (fun n => Except.ok (Value.int n)) (Int64.ofInt_toInt n)
  | float x =>
      obtain ⟨hcontent, htrimmed⟩ := trimmed_content (not_isBlank_text (v := .float x) nofun)
      have hread : Numeral.readFloat (trimmed (Value.float x).text) = .ok x := by
        rw [htrimmed, Value.text]
        cases hnan : x.isNaN with
        | false => exact h.float x rfl hnan
        | true =>
            rw [Numeral.eq_nan_of_isNaN hnan]
            exact Numeral.readFloat_nan
      have hreader : reader (Value.float x).ty = readFloat := rfl
      refine ⟨?_, rfl⟩
      rw [hcontent, hreader, readFloat_of_ok hread]
      rfl
  | bool b =>
      obtain ⟨hcontent, htrimmed⟩ := trimmed_content (not_isBlank_text (v := .bool b) nofun)
      have hlower : ∀ b, Text.lowerCase (Value.boolText b) = Value.boolText b := by decide
      refine ⟨?_, rfl⟩
      have hreader : reader (Value.bool b).ty = readBool := rfl
      rw [hcontent, hreader, readBool, htrimmed, Value.text, hlower]
      cases b <;> rfl

/-! ## Sequences of values -/

/-- Prints values one after the other. -/
def printAll : List Value → Run Unit
  | [] => return
  | v :: vs => do
    let _ ← natives.call "print" [v]
    printAll vs

/-- The lines of values. -/
def lines (vs : List Value) : String :=
  String.join (vs.map fun v => v.text ++ "\n")

/-- The machine prompts with the given texts one after the other, each time for the type of the
value. The prompt returns the value and takes a line from the input. -/
inductive Prompts : Machine → List (String × Value) → Machine → Prop
  | nil (m : Machine) : Prompts m [] m
  | cons {m m' m'' : Machine} {ask : String} {v : Value} {line : List Char}
      {more : List (String × Value)} :
      natives.call (promptName v.ty) [.string ask] m = (.ok v, m') →
      m.host.input = line ++ '\n' :: m'.host.input → '\n' ∉ line →
      Prompts m' more m'' → Prompts m ((ask, v) :: more) m''

/-- Each value is printed on a line of its own. -/
theorem lines_cons (v : Value) (vs : List Value) : lines (v :: vs) = v.text ++ "\n" ++ lines vs := by
  rw [lines, List.map_cons, String.join_cons]
  rfl

/-- Printing values other than `void` writes their lines and does nothing else. -/
theorem printAll_apply {vs : List Value} (h : ∀ v ∈ vs, v.ty ≠ .void) (m : Machine) :
    printAll vs m = (.ok (), { m with host := m.host.write (lines vs) }) := by
  induction vs generalizing m with
  | nil => simp [printAll, lines, Host.write]
  | cons v vs ih =>
      rw [printAll, Step.bind_ok (call_print (h v List.mem_cons_self) m),
        ih fun v hv => h v (List.mem_cons_of_mem _ hv), lines_cons]
      simp [Host.write, String.append_assoc]

/-- Prompts take the lines one after another, by induction on the values. -/
theorem prompts_lines {vs : List Value} (h : ∀ v ∈ vs, Printable v) {asks : List String}
    (hasks : asks.length = vs.length) {m : Machine} {rest : List Char}
    (hinput : m.host.input = (lines vs).toList ++ rest) :
    Prompts m (asks.zip vs) { m with host :=
      { m.host with output := m.host.output ++ String.join asks, input := rest } } := by
  induction vs generalizing m asks with
  | nil =>
      obtain rfl := List.length_eq_zero_iff.mp hasks
      have hrest : m.host.input = rest := hinput
      subst hrest
      simpa using Prompts.nil m
  | cons v vs ih =>
      obtain ⟨ask, asks, rfl⟩ := List.exists_cons_of_length_eq_add_one hasks
      have hv := h v List.mem_cons_self
      have hinput : m.host.input = v.text.toList ++ '\n' :: ((lines vs).toList ++ rest) := by
        rw [hinput, lines_cons]
        simp
      have hty : v.ty ≠ .void ∧ v.ty ≠ .any := by
        cases v with
        | void => exact absurd rfl hv.ne_void
        | _ => exact ⟨nofun, nofun⟩
      obtain ⟨hread, hvalue⟩ := hv.reader_content
      rw [List.zip_cons_cons, String.join_cons, ← String.append_assoc]
      exact .cons (call_prompt hty ask hinput hv.newline_not_mem hread hvalue) hinput
        hv.newline_not_mem
        (ih (fun v hv => h v (List.mem_cons_of_mem _ hv)) (Nat.succ.inj hasks) rfl)

/-- Let values other than `void` be given whose strings have no line feed and do not end in a
carriage return. Printing them writes their lines. Where the input begins with these lines,
prompting for the types of the values returns the values one after the other; and each prompt takes
the next line from the input. This is assumed of floats: a number is the one that is read from its
text. -/
theorem printed_prompted {vs : List Value} (hvoid : .void ∉ vs)
    (hstring : ∀ s, .string s ∈ vs → '\n' ∉ s.toList ∧ s.toList.getLast? ≠ some '\r')
    (hfloat : ∀ x, .float x ∈ vs → x.isNaN = false →
      Numeral.readFloat (Value.floatText x) = .ok x) :
    (∀ m : Machine, printAll vs m = (.ok (), { m with host := m.host.write (lines vs) })) ∧
      ∀ (asks : List String) (m : Machine) (rest : List Char), asks.length = vs.length →
        m.host.input = (lines vs).toList ++ rest →
        Prompts m (asks.zip vs) { m with host :=
          { m.host with output := m.host.output ++ String.join asks, input := rest } } := by
  have hprintable : ∀ v ∈ vs, Printable v := fun v hv =>
    ⟨fun h => hvoid (h ▸ hv), fun s h => hstring s (h ▸ hv), fun x h => hfloat x (h ▸ hv)⟩
  refine ⟨printAll_apply fun v hv => ?_, fun asks m rest hasks hinput =>
    prompts_lines hprintable hasks hinput⟩
  cases v with
  | void => exact absurd hv hvoid
  | _ => exact nofun

/-- The least and the greatest integer, floats, truth values, and strings with blanks and control
characters. -/
def mixedValues : List Value :=
  [.int (-9223372036854775808), .int 9223372036854775807, .float 0.5, .float (0.0 / 0.0),
    .bool true, .string "", .string " a\r\tb ", .bool false]

/-- The lines of the mixed values. -/
def mixedLines : String :=
  "-9223372036854775808\n9223372036854775807\n0.5\nnan\ntrue\n\n a\r\tb \nfalse\n"

/-- A machine that has written nothing and runs nothing. -/
def idle (input : String) : Machine where
  arena := {}
  globals := 0
  frames := []
  host := { input := input.toList }

/-- Mixed values are printed and prompted for. -/
theorem printed_prompted_mixed :
    lines mixedValues = mixedLines ∧
      printAll mixedValues (idle "") =
        (.ok (), { idle "" with host := { output := mixedLines } }) ∧
      Prompts (idle mixedLines) (["a", "b", "c", "d", "e", "f", "g", "h"].zip mixedValues)
        { idle "" with host := { output := "abcdefgh" } } := by
  have hlines : lines mixedValues = mixedLines := by decide +kernel
  have hvoid : .void ∉ mixedValues := by simp [mixedValues]
  have hstring : ∀ s, .string s ∈ mixedValues →
      '\n' ∉ s.toList ∧ s.toList.getLast? ≠ some '\r' := by
    intro s hs
    have hs : s = "" ∨ s = " a\r\tb " := by simpa [mixedValues] using hs
    rcases hs with rfl | rfl <;> decide
  have hfloat : ∀ x, .float x ∈ mixedValues → x.isNaN = false →
      Numeral.readFloat (Value.floatText x) = .ok x := by
    intro x hx hnan
    have hx : x = 0.5 ∨ x = 0.0 / 0.0 := by simpa [mixedValues] using hx
    rcases hx with rfl | rfl
    · have htext : Value.floatText 0.5 = "0.5" := by decide +kernel
      rw [htext]
      rfl
    · exact absurd hnan (by decide +kernel)
  obtain ⟨hprint, hprompt⟩ := printed_prompted hvoid hstring hfloat
  refine ⟨hlines, ?_, ?_⟩
  · rw [hprint, hlines]
    rfl
  · have hinput : (idle mixedLines).host.input = (lines mixedValues).toList ++ [] := by
      rw [hlines, List.append_nil]
      rfl
    exact hprompt _ (idle mixedLines) [] rfl hinput

end Console

end Pigeon
