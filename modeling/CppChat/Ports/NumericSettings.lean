import Mathlib.Data.List.TakeWhile
import CppChat.Verified.Layers
import CppChat.Ports.ServerConfig

/-!
# The numeric settings

A number may be set in the file and in the environment, the database port under two names
in each.  The comments say that what does not parse falls back to what is there.  The
helpers parse with `stoi`, which takes a number from the start of a text and leaves the rest
of it unread, and they do not look at what is left.

## Main results

* `decimalInteger_eq_some_iff`: which texts are decimal integers.
* `get_loadDefaultConfig`: the code's value, as the first of the layers that `stoi` takes.
* `get_loadDefaultConfig_iff`: exactly when it is the value of the first layer whose text is
  a decimal integer.
-/

namespace CppChat.Ports.Config

open CppChat.Verified
open CppChat.Verified.Layers
open CppChat.Ports.Users

/-! ## Numbers in a text -/

/-- The text has a minus sign, behind the blanks that `stoi` skips. -/
def isNegative (text : Bytes) : Bool := (text.dropWhile isSpace).head? == some (chr '-')

/-- The text behind the blanks and the sign. -/
def afterSign (text : Bytes) : Bytes :=
  let unsigned := text.dropWhile isSpace
  if unsigned.head? == some (chr '-') || unsigned.head? == some (chr '+') then unsigned.drop 1
  else unsigned

/-- The digits that `stoi` reads. -/
def digitsRead (text : Bytes) : Bytes := (afterSign text).takeWhile isDigit

/-- What `stoi` leaves, from its `pos` on. -/
def unread (text : Bytes) : Bytes := (afterSign text).dropWhile isDigit

/-- The number that `stoi` reads off the front of the text, in unbounded arithmetic. -/
def numberRead (text : Bytes) : Int :=
  if isNegative text then -(digitsValue (digitsRead text) : Int) else digitsValue (digitsRead text)

/-- The number that a text is, up to blanks around it. -/
def decimalInteger (text : Bytes) : Option Int :=
  if (digitsRead text).isEmpty || !(unread text).all isSpace then none
  else some (numberRead text)

/-- `stoi` needs a digit and a value in range. -/
theorem stoi_eq_some_iff (text : Bytes) (value : Int) :
    stoi text = some value ↔
      digitsRead text ≠ [] ∧ -2 ^ 31 ≤ value ∧ value ≤ 2 ^ 31 - 1 ∧ numberRead text = value := by
  have hStoi : stoi text =
      if (digitsRead text).isEmpty ∨ numberRead text < -2 ^ 31 ∨ numberRead text > 2 ^ 31 - 1 then
        none
      else some (numberRead text) := by
    simp only [stoi, digitsRead, numberRead, afterSign, isNegative, Bool.or_eq_true, beq_iff_eq]
  rw [hStoi, Option.ite_none_left_eq_some, Option.some.injEq]
  constructor
  · rintro ⟨hRange, rfl⟩
    simp only [not_or, List.isEmpty_iff] at hRange
    exact ⟨hRange.1, by omega, by omega, rfl⟩
  · rintro ⟨hDigits, hLow, hHigh, rfl⟩
    constructor
    · simp only [not_or, List.isEmpty_iff]
      exact ⟨hDigits, by omega, by omega⟩
    · rfl

/-- A decimal integer leaves nothing but blanks behind its digits. -/
theorem decimalInteger_iff_read (text : Bytes) (value : Int) :
    decimalInteger text = some value ↔
      digitsRead text ≠ [] ∧ (∀ b ∈ unread text, isSpace b = true) ∧ numberRead text = value := by
  rw [decimalInteger, Option.ite_none_left_eq_some, Option.some.injEq]
  simp only [Bool.or_eq_true, not_or, List.isEmpty_iff, Bool.not_eq_true, Bool.not_eq_false',
    List.all_eq_true, and_assoc]

/-- A sign and what it makes of a number. -/
inductive Sign : Bytes → (Nat → Int) → Prop where
  | none : Sign [] fun n => n
  | plus : Sign [chr '+'] fun n => n
  | minus : Sign [chr '-'] fun n => -n

theorem isDigit_of_isSpace {b : UInt8} (h : isSpace b = true) : isDigit b = false := by
  rw [isSpace_iff] at h
  rw [← Bool.not_eq_true, isDigit_iff]
  omega

theorem isSpace_of_isDigit {b : UInt8} (h : isDigit b = true) : isSpace b = false := by
  rw [← Bool.not_eq_true]
  intro hSpace
  rw [isDigit_of_isSpace hSpace] at h
  contradiction

/-- Digits up to the blanks behind them. -/
theorem span_digits {digits blanks : Bytes} (hDigits : ∀ b ∈ digits, isDigit b = true)
    (hBlanks : ∀ b ∈ blanks, isSpace b = true) :
    (digits ++ blanks).takeWhile isDigit = digits ∧
      (digits ++ blanks).dropWhile isDigit = blanks := by
  rw [List.takeWhile_append_of_pos hDigits, List.dropWhile_append_of_pos hDigits]
  cases blanks with
  | nil => simp
  | cons b rest =>
      have hStop := isDigit_of_isSpace (hBlanks b List.mem_cons_self)
      simp [hStop]

/-- A signed run of digits starts with its sign, or with a digit. -/
theorem unsigned_of_sign {before sign digits : Bytes} {apply : Nat → Int} (rest : Bytes)
    (hBefore : ∀ b ∈ before, isSpace b = true) (hSign : Sign sign apply)
    (hNonempty : digits ≠ []) (hDigits : ∀ b ∈ digits, isDigit b = true) :
    (before ++ sign ++ digits ++ rest).dropWhile isSpace = sign ++ digits ++ rest := by
  rw [List.append_assoc, List.append_assoc, List.dropWhile_append_of_pos hBefore,
    ← List.append_assoc]
  obtain ⟨first, digits, rfl⟩ := List.exists_cons_of_ne_nil hNonempty
  have hFirst := isSpace_of_isDigit (hDigits first List.mem_cons_self)
  cases hSign with
  | none => simp [hFirst]
  | plus => rfl
  | minus => rfl

theorem read_signed {sign digits rest text : Bytes} {apply : Nat → Int} (hSign : Sign sign apply)
    (hNonempty : digits ≠ []) (hDigits : ∀ b ∈ digits, isDigit b = true)
    (hText : text.dropWhile isSpace = sign ++ digits ++ rest) :
    afterSign text = digits ++ rest ∧
      ∀ n : Nat, (if isNegative text then -(n : Int) else n) = apply n := by
  obtain ⟨first, digits, rfl⟩ := List.exists_cons_of_ne_nil hNonempty
  have hFirst := (isDigit_iff first).mp (hDigits first List.mem_cons_self)
  -- neither `-` nor `+`
  have hMinus : first ≠ 45 := by
    rintro rfl
    exact absurd hFirst (by decide)
  have hPlus : first ≠ 43 := by
    rintro rfl
    exact absurd hFirst (by decide)
  unfold afterSign isNegative
  rw [hText]
  cases hSign with
  | none => simp [hMinus, hPlus]
  | plus => simp
  | minus => simp

theorem exists_sign (text : Bytes) :
    ∃ sign apply, Sign sign apply ∧ text.dropWhile isSpace = sign ++ afterSign text ∧
      ∀ n : Nat, (if isNegative text then -(n : Int) else n) = apply n := by
  unfold afterSign isNegative
  cases hUnsigned : text.dropWhile isSpace with
  | nil => exact ⟨[], _, .none, rfl, fun n => rfl⟩
  | cons first rest =>
      by_cases hMinus : first = 45
      · subst hMinus
        exact ⟨_, _, .minus, by simp, by simp⟩
      · by_cases hPlus : first = 43
        · subst hPlus
          exact ⟨_, _, .plus, by simp, by simp⟩
        · exact ⟨_, _, .none, by simp [hMinus, hPlus], by simp [hMinus]⟩

/-- Blanks, a sign, digits and blanks. -/
theorem decimalInteger_eq_some_iff (text : Bytes) (value : Int) :
    decimalInteger text = some value ↔
      ∃ before sign apply digits after, text = before ++ sign ++ digits ++ after ∧
        (∀ b ∈ before, isSpace b = true) ∧ (∀ b ∈ after, isSpace b = true) ∧
        Sign sign apply ∧ digits ≠ [] ∧ (∀ b ∈ digits, isDigit b = true) ∧
        value = apply (digitsValue digits) := by
  rw [decimalInteger_iff_read]
  constructor
  · rintro ⟨hDigits, hBlanks, rfl⟩
    obtain ⟨sign, apply, hSign, hUnsigned, hValue⟩ := exists_sign text
    refine ⟨text.takeWhile isSpace, sign, apply, digitsRead text, unread text, ?_, ?_, hBlanks,
      hSign, hDigits, ?_, hValue _⟩
    · rw [List.append_assoc, digitsRead, unread, List.takeWhile_append_dropWhile,
        List.append_assoc, ← hUnsigned, List.takeWhile_append_dropWhile]
    · exact fun b hb => List.mem_takeWhile_imp hb
    · exact fun b hb => List.mem_takeWhile_imp hb
  · rintro ⟨before, sign, apply, digits, after, rfl, hBefore, hAfter, hSign, hNonempty, hDigits,
      rfl⟩
    have hText := unsigned_of_sign after hBefore hSign hNonempty hDigits
    obtain ⟨hAfterSign, hValue⟩ := read_signed hSign hNonempty hDigits hText
    obtain ⟨hTake, hDrop⟩ := span_digits hDigits hAfter
    unfold digitsRead unread numberRead digitsRead
    rw [hAfterSign, hTake, hDrop]
    exact ⟨hNonempty, hAfter, hValue _⟩

/-! ## The settings and their layers -/

/-- The numbers that are read from the file and the environment. -/
inductive NumericField where
  | logDbPort
  | dbPoolSize
  | dbConnectTimeoutSeconds
  | dbReadTimeoutSeconds
  | dbWriteTimeoutSeconds
  | dbAcquireTimeoutMs
  | dbMaxReconnectAttempts
  | dbIdlePingIntervalSeconds
  | dbIdleCheckIntervalSeconds
  | maxReadBufferBytes
  | maxWriteBufferBytes
  | maxResponseQueueSize
  | maxThreadPoolQueueSize
deriving DecidableEq, Repr

namespace NumericField

/-- The value of a numeric field. -/
def get (config : ServerConfig) : NumericField → Int
  | logDbPort => config.logDbPort
  | dbPoolSize => config.dbPoolSize
  | dbConnectTimeoutSeconds => config.dbConnectTimeoutSeconds
  | dbReadTimeoutSeconds => config.dbReadTimeoutSeconds
  | dbWriteTimeoutSeconds => config.dbWriteTimeoutSeconds
  | dbAcquireTimeoutMs => config.dbAcquireTimeoutMs
  | dbMaxReconnectAttempts => config.dbMaxReconnectAttempts
  | dbIdlePingIntervalSeconds => config.dbIdlePingIntervalSeconds
  | dbIdleCheckIntervalSeconds => config.dbIdleCheckIntervalSeconds
  | maxReadBufferBytes => config.maxReadBufferBytes
  | maxWriteBufferBytes => config.maxWriteBufferBytes
  | maxResponseQueueSize => config.maxResponseQueueSize
  | maxThreadPoolQueueSize => config.maxThreadPoolQueueSize

/-- The names of a setting, the one that counts more first. -/
def names : NumericField → List Bytes
  | logDbPort => [ascii "CPP_CHAT_LOG_DB_PORT", ascii "CPP_CHAT_DB_PORT"]
  | dbPoolSize => [ascii "CPP_CHAT_DB_POOL_SIZE"]
  | dbConnectTimeoutSeconds => [ascii "CPP_CHAT_DB_CONNECT_TIMEOUT_SECONDS"]
  | dbReadTimeoutSeconds => [ascii "CPP_CHAT_DB_READ_TIMEOUT_SECONDS"]
  | dbWriteTimeoutSeconds => [ascii "CPP_CHAT_DB_WRITE_TIMEOUT_SECONDS"]
  | dbAcquireTimeoutMs => [ascii "CPP_CHAT_DB_ACQUIRE_TIMEOUT_MS"]
  | dbMaxReconnectAttempts => [ascii "CPP_CHAT_DB_MAX_RECONNECT_ATTEMPTS"]
  | dbIdlePingIntervalSeconds => [ascii "CPP_CHAT_DB_IDLE_PING_INTERVAL_SECONDS"]
  | dbIdleCheckIntervalSeconds => [ascii "CPP_CHAT_DB_IDLE_CHECK_INTERVAL_SECONDS"]
  | maxReadBufferBytes => [ascii "CPP_CHAT_MAX_READ_BUFFER_BYTES"]
  | maxWriteBufferBytes => [ascii "CPP_CHAT_MAX_WRITE_BUFFER_BYTES"]
  | maxResponseQueueSize => [ascii "CPP_CHAT_MAX_RESPONSE_QUEUE_SIZE"]
  | maxThreadPoolQueueSize => [ascii "CPP_CHAT_THREAD_POOL_MAX_QUEUE_SIZE"]

/-- The values a setting may have: a port, an `int` from zero, or an `int` from one. -/
def inRange : NumericField → Int → Bool
  | logDbPort => fun value => 1 ≤ value && value ≤ 65535
  | dbMaxReconnectAttempts => fun value => 0 ≤ value && value ≤ 2147483647
  | _ => fun value => 1 ≤ value && value ≤ 2147483647

/-- The value without any settings. -/
def builtIn (field : NumericField) : Int := field.get {}

/-- The texts that the sources give for a setting, the environment first. -/
def texts (field : NumericField) (file : Option Bytes) (environment : Environment) :
    List (Option Bytes) :=
  field.names.map environment.getenv ++
    field.names.map fun name => (assignments file).reverse.lookup name

end NumericField

/-- What a parse helper takes from a source. -/
def taken (inRange : Int → Bool) (text : Option Bytes) : Option Int :=
  text.bind fun text => (stoi text).filter inRange

/-- What a source gives: a decimal integer that is in range. -/
def given (inRange : Int → Bool) (text : Option Bytes) : Option Int :=
  text.bind fun text => (decimalInteger text).filter inRange

/-- The value of the first source that gives one, or the default. -/
def NumericField.prescribed (field : NumericField) (file : Option Bytes)
    (environment : Environment) : Int :=
  settled (given field.inRange) field.builtIn (field.texts file environment)

/-- A helper takes a value from the environment or keeps the default. -/
theorem getEnvIntOrDefault_eq (inRange : Int → Bool) (environment : Environment)
    (name : Bytes) (default : Int) :
    getEnvIntOrDefault (parseIntOrDefault inRange) environment name default =
      (taken inRange (environment.getenv name)).getD default := by
  unfold getEnvIntOrDefault taken
  cases environment.getenv name with
  | none => rfl
  | some value =>
      rw [Option.bind_some, ← parseIntOrDefault_eq]
      cases value with
      | nil => rfl
      | cons first rest => rfl

/-- A helper takes a value from the file or keeps the default. -/
theorem parse_getFileValueOrDefault (inRange : Int → Bool) (file : Option Bytes)
    (name : Bytes) (default : Int) :
    parseIntOrDefault inRange (getFileValueOrDefault (loadEnvFile file) name []) default =
      (taken inRange ((assignments file).reverse.lookup name)).getD default := by
  rw [parseIntOrDefault_eq, getFileValueOrDefault, lookup_loadEnvFile]
  cases (assignments file).reverse.lookup name with
  | none => rfl
  | some value =>
      rw [taken, Option.bind_some]
      cases value with
      | nil => rfl
      | cons first rest => rfl

/-- `stoi` itself keeps the upper bound of `int`. -/
theorem taken_congr {inRange inRange' : Int → Bool}
    (h : ∀ value, value ≤ 2147483647 → inRange value = inRange' value) :
    taken inRange = taken inRange' := by
  funext text
  cases text with
  | none => rfl
  | some text =>
      rw [taken, taken, Option.bind_some, Option.bind_some]
      cases hStoi : stoi text with
      | none => rfl
      | some value =>
          have hLe := stoi_le hStoi
          rw [Option.filter_some, Option.filter_some, h value (by omega)]

/-- One name, in the file and in the environment. -/
theorem settled_two (inRange : Int → Bool) (file : Option Bytes) (environment : Environment)
    (name : Bytes) (default : Int) :
    getEnvIntOrDefault (parseIntOrDefault inRange) environment name
        (parseIntOrDefault inRange (getFileValueOrDefault (loadEnvFile file) name []) default) =
      settled (taken inRange) default
        [environment.getenv name, (assignments file).reverse.lookup name] := by
  rw [getEnvIntOrDefault_eq, parse_getFileValueOrDefault, settled_cons, settled_cons, settled_nil]

/-- Two names, in the file and in the environment. -/
theorem settled_four (inRange : Int → Bool) (file : Option Bytes) (environment : Environment)
    (name other : Bytes) (default : Int) :
    getEnvIntOrDefault (parseIntOrDefault inRange) environment name
        (getEnvIntOrDefault (parseIntOrDefault inRange) environment other
          (parseIntOrDefault inRange (getFileValueOrDefault (loadEnvFile file) name [])
            (parseIntOrDefault inRange (getFileValueOrDefault (loadEnvFile file) other [])
              default))) =
      settled (taken inRange) default
        [environment.getenv name, environment.getenv other,
          (assignments file).reverse.lookup name, (assignments file).reverse.lookup other] := by
  simp only [getEnvIntOrDefault_eq, parse_getFileValueOrDefault, settled_cons, settled_nil]

/-- `stoi` keeps to the range of `int`, so that the lower bound is all there is to
check. -/
theorem positive_inRange :
    taken (fun parsed => 0 < parsed) =
      taken (fun value => 1 ≤ value && value ≤ 2147483647) := by
  apply taken_congr
  intro value hLe
  rw [decide_eq_true hLe, Bool.and_true]
  exact decide_eq_decide.mpr Int.lt_iff_add_one_le

theorem nonNegative_inRange :
    taken (fun parsed => 0 ≤ parsed) =
      taken (fun value => 0 ≤ value && value ≤ 2147483647) := by
  apply taken_congr
  intro value hLe
  rw [decide_eq_true hLe, Bool.and_true]

theorem port_inRange :
    taken (fun parsed => 0 < parsed && parsed ≤ 65535) =
      taken (fun value => 1 ≤ value && value ≤ 65535) := by
  apply taken_congr
  intro value _
  exact congrArg (· && decide (value ≤ 65535)) (decide_eq_decide.mpr Int.lt_iff_add_one_le)

/-- The code settles on the first source that `stoi` takes. -/
theorem get_loadDefaultConfig (file : Option Bytes) (environment : Environment)
    (field : NumericField) :
    field.get (loadDefaultConfig file environment) =
      settled (taken field.inRange) field.builtIn (field.texts file environment) := by
  cases field with
  | logDbPort => exact (settled_four _ file environment _ _ _).trans (by rw [port_inRange]; rfl)
  | dbMaxReconnectAttempts =>
      exact (settled_two _ file environment _ _).trans (by rw [nonNegative_inRange]; rfl)
  | _ => exact (settled_two _ file environment _ _).trans (by rw [positive_inRange]; rfl)

/-- A decimal integer in range is what `stoi` reads. -/
theorem stoi_of_decimalInteger {text : Bytes} {value : Int}
    (h : decimalInteger text = some value) (hLow : -2 ^ 31 ≤ value) (hHigh : value ≤ 2 ^ 31 - 1) :
    stoi text = some value := by
  obtain ⟨hDigits, -, hValue⟩ := (decimalInteger_iff_read text value).mp h
  exact (stoi_eq_some_iff text value).mpr ⟨hDigits, hLow, hHigh, hValue⟩

/-- What `stoi` takes is the whole text where it leaves only blanks. -/
theorem decimalInteger_of_stoi {text : Bytes} {value : Int} (h : stoi text = some value) :
    decimalInteger text = some value ↔ ∀ b ∈ unread text, isSpace b = true := by
  obtain ⟨hDigits, -, -, hValue⟩ := (stoi_eq_some_iff text value).mp h
  rw [decimalInteger_iff_read]
  exact ⟨fun hRead => hRead.2.1, fun hBlanks => ⟨hDigits, hBlanks, hValue⟩⟩

theorem NumericField.bounds_of_inRange {field : NumericField} {value : Int}
    (h : field.inRange value = true) : 0 ≤ value ∧ value ≤ 2 ^ 31 - 1 := by
  cases field <;>
    · simp only [NumericField.inRange, Bool.and_eq_true, decide_eq_true_eq] at h
      omega

theorem given_eq_some {inRange : Int → Bool} {source : Option Bytes} {value : Int}
    (h : given inRange source = some value) :
    ∃ text, source = some text ∧ decimalInteger text = some value ∧ inRange value = true := by
  obtain ⟨text, hText, hValue⟩ := Option.bind_eq_some_iff.mp h
  obtain ⟨hValue, hRange⟩ := Option.filter_eq_some_iff.mp hValue
  exact ⟨text, hText, hValue, hRange⟩

theorem taken_eq_some {inRange : Int → Bool} {source : Option Bytes} {value : Int}
    (h : taken inRange source = some value) :
    ∃ text, source = some text ∧ stoi text = some value ∧ inRange value = true := by
  obtain ⟨text, hText, hValue⟩ := Option.bind_eq_some_iff.mp h
  obtain ⟨hValue, hRange⟩ := Option.filter_eq_some_iff.mp hValue
  exact ⟨text, hText, hValue, hRange⟩

/-- What a source gives is taken from it. -/
theorem taken_of_given {field : NumericField} {source : Option Bytes} {value : Int}
    (h : given field.inRange source = some value) : taken field.inRange source = some value := by
  obtain ⟨text, rfl, hValue, hRange⟩ := given_eq_some h
  obtain ⟨hLow, hHigh⟩ := NumericField.bounds_of_inRange hRange
  have hStoi := stoi_of_decimalInteger hValue (by omega) hHigh
  rw [taken, Option.bind_some, hStoi, Option.filter_some_pos hRange]

/-- Of the first source that starts with a number in range, nothing but blanks is left
behind it, or that number is what the sources after it prescribe. -/
def NumericField.ReadToTheEnd (field : NumericField) (file : Option Bytes)
    (environment : Environment) : Prop :=
  ∀ above text below value, field.texts file environment = above ++ some text :: below →
    (∀ skipped ∈ above, taken field.inRange skipped = none) →
    stoi text = some value → field.inRange value = true →
    (∀ b ∈ unread text, isSpace b = true) ∨
      settled (given field.inRange) field.builtIn below = value

/-- What is taken was given when nothing but blanks is left behind it. -/
theorem given_of_stoi {inRange : Int → Bool} {text : Bytes} {value : Int}
    (hStoi : stoi text = some value) (hRange : inRange value = true) :
    given inRange (some text) = some value ↔ ∀ b ∈ unread text, isSpace b = true := by
  rw [given, Option.bind_some, Option.filter_eq_some_iff, decimalInteger_of_stoi hStoi]
  exact and_iff_left hRange

theorem readToTheEnd_iff_takenStrictly (field : NumericField) (file : Option Bytes)
    (environment : Environment) :
    field.ReadToTheEnd file environment ↔
      TakenStrictly (given field.inRange) (taken field.inRange) field.builtIn
        (field.texts file environment) := by
  constructor
  · intro hRead above source below value hSplit hAbove hTaken
    obtain ⟨text, rfl, hStoi, hRange⟩ := taken_eq_some hTaken
    rw [given_of_stoi hStoi hRange]
    exact hRead above text below value hSplit hAbove hStoi hRange
  · intro hStrict above text below value hSplit hAbove hStoi hRange
    have hTaken : taken field.inRange (some text) = some value := by
      rw [taken, Option.bind_some, hStoi, Option.filter_some_pos hRange]
    rw [← given_of_stoi hStoi hRange]
    exact hStrict above (some text) below value hSplit hAbove hTaken

/-- The value is the prescribed one exactly if the source it is taken from is read to the
end. -/
theorem get_loadDefaultConfig_iff (file : Option Bytes) (environment : Environment)
    (field : NumericField) :
    field.get (loadDefaultConfig file environment) = field.prescribed file environment ↔
      field.ReadToTheEnd file environment := by
  rw [get_loadDefaultConfig, NumericField.prescribed, readToTheEnd_iff_takenStrictly]
  exact settled_eq_settled_iff fun _ _ => taken_of_given

/-- A read buffer of `2MB` is one of two bytes. -/
theorem not_get_loadDefaultConfig :
    ¬∀ (file : Option Bytes) (environment : Environment) (field : NumericField),
      field.get (loadDefaultConfig file environment) = field.prescribed file environment := by
  intro h
  let environment : Environment :=
    { getenv := fun name =>
        if name = ascii "CPP_CHAT_MAX_READ_BUFFER_BYTES" then some (ascii "2MB") else none
      noNul := by
        intro name value hValue
        rw [← Option.some.inj (Option.ite_none_right_eq_some.mp hValue).2, ascii_ofList]
        decide }
  have hTexts : NumericField.maxReadBufferBytes.texts none environment =
      [some (ascii "2MB"), none] := by
    simp [NumericField.texts, NumericField.names, environment, assignments, getLines]
  have hTaken : taken NumericField.maxReadBufferBytes.inRange (some (ascii "2MB")) = some 2 := by
    rw [ascii_ofList]
    decide
  have hGiven : given NumericField.maxReadBufferBytes.inRange (some (ascii "2MB")) = none := by
    rw [ascii_ofList]
    decide
  have hSame := h none environment .maxReadBufferBytes
  rw [get_loadDefaultConfig, NumericField.prescribed, hTexts, settled_cons_of_some hTaken,
    settled_cons_of_none hGiven] at hSame
  exact absurd hSame (by decide)

end CppChat.Ports.Config
