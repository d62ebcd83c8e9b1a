/-
Python values and exceptions, as far as the program looks at them: the
values a `Dict[str, Any]` configuration holds, `int(..)`, `float(..)` and
`bool(..)` of them, and the exceptions the code raises and catches.

Floats are taken exactly: a finite float is its rational value, and no
result is rounded. Integers of any length are read and printed. Digits and
blanks are those of Unicode 15. A class has a name that can be read, and what
comes of reading an exception is the same each time.
-/
import Mathlib.Data.Rat.Floor
import Mathlib.Data.List.Infix

namespace SentinelFlow

/-- Seconds, on a clock or between two readings of it. -/
abbrev Time := ℚ

/-- `sub in s`. -/
def contains (s sub : String) : Bool := decide (sub.toList <:+: s.toList)

/-- `s.lower()`, as far as its result is ASCII: of the characters beyond
ASCII only KELVIN SIGN has an ASCII letter for its lower case. -/
def lower (s : String) : String :=
  String.ofList (s.toList.map fun c => if c.toNat = 8490 then 'k' else c.toLower)

/-- The characters beyond ASCII whose upper case is ASCII. -/
def asciiUppers : List (ℕ × String) :=
  [(0xdf, "SS"), (0x131, "I"), (0x17f, "S"), (0xfb00, "FF"), (0xfb01, "FI"), (0xfb02, "FL"), (0xfb03, "FFI"),
    (0xfb04, "FFL"), (0xfb05, "ST"), (0xfb06, "ST")]

/-- `s.upper()`, as far as its result is ASCII. -/
def upper (s : String) : String :=
  String.ofList (s.toList.flatMap fun c => match asciiUppers.lookup c.toNat with
    | some cs => cs.toList
    | none => [c.toUpper])

/-! ## Exceptions -/

/-- The classes the code names in an `except` clause or in `isinstance`. -/
inductive ExcClass
  | valueError | typeError | attributeError | overflowError | timeoutError | validationError
  | clientError | contentTypeError | sentinelDomainError | configError | ingestionError | dispatchError
  | circuitBreakerOpenException | fileNotFoundError | yamlError | indexError | assertionError
  deriving DecidableEq, Repr

/-- An instance of a class derived from `Exception`: its class as
`str(type(e))` shows it, the classes above that it is an instance of,
`str(e)`, which may raise, its attribute `retryable` (`False` when it has
none), and whether `getattr(e, "error_code", ..)` raises. -/
structure Exc where
  typeStr : String
  bases : List ExcClass
  str : Except Exc String
  retryable : Bool := false
  errorCode : Except Exc Unit := .ok ()
  deriving Repr

mutual

def Exc.decEq : DecidableEq Exc
  | ⟨t, bs, s, r, c⟩, ⟨t', bs', s', r', c'⟩ =>
    have := Exc.decEqStr s s'
    have := Exc.decEqErrorCode c c'
    decidable_of_iff (t = t' ∧ bs = bs' ∧ s = s' ∧ r = r' ∧ c = c') (by simp)

def Exc.decEqStr : DecidableEq (Except Exc String)
  | .ok s, .ok s' => decidable_of_iff (s = s') (by simp)
  | .error e, .error e' =>
    have := e.decEq e'
    decidable_of_iff (e = e') (by simp)
  | .ok _, .error _ | .error _, .ok _ => isFalse nofun

def Exc.decEqErrorCode : DecidableEq (Except Exc Unit)
  | .ok (), .ok () => isTrue rfl
  | .error e, .error e' =>
    have := e.decEq e'
    decidable_of_iff (e = e') (by simp)
  | .ok _, .error _ | .error _, .ok _ => isFalse nofun

end

instance : DecidableEq Exc := Exc.decEq

/-- An exception whose text and attributes can be read. -/
def plainExc (typeStr : String) (bases : List ExcClass) (text : String) (retryable : Bool := false) : Exc :=
  ⟨typeStr, bases, .ok text, retryable, .ok ()⟩

section PlainExc

variable (typeStr : String) (bases : List ExcClass) (text : String) (retryable : Bool)

@[simp] theorem plainExc_typeStr : (plainExc typeStr bases text retryable).typeStr = typeStr := rfl
@[simp] theorem plainExc_bases : (plainExc typeStr bases text retryable).bases = bases := rfl
@[simp] theorem plainExc_str : (plainExc typeStr bases text retryable).str = .ok text := rfl
@[simp] theorem plainExc_retryable : (plainExc typeStr bases text retryable).retryable = retryable := rfl
@[simp] theorem plainExc_errorCode : (plainExc typeStr bases text retryable).errorCode = .ok () := rfl

end PlainExc

/-- `isinstance(e, c)`. -/
def Exc.isInstance (e : Exc) (c : ExcClass) : Bool := decide (c ∈ e.bases)

/-- An exception made of a text that quotes `e`; what `str(e)` raises takes
its place. -/
def Exc.quoted (e : Exc) (wrap : String → Exc) : Exc :=
  match e.str with
  | .ok text => wrap text
  | .error e' => e'

/-- What leaves a coroutine that does not return: `asyncio.CancelledError`,
which no `except Exception` catches, or an `Exception`. -/
inductive Raised
  | cancelledError
  | exception (e : Exc)
  deriving DecidableEq, Repr

theorem bind_ok {α β : Type} {x : Except Exc α} {f : α → Except Exc β} {b : β} (h : (x >>= f) = .ok b) :
    ∃ a, x = .ok a ∧ f a = .ok b := by
  cases x with
  | error e => cases h
  | ok a => exact ⟨a, rfl, h⟩

def valueError (text : String) : Exc := plainExc "<class 'ValueError'>" [.valueError] text
def typeError (text : String) : Exc := plainExc "<class 'TypeError'>" [.typeError] text
def attributeError (text : String) : Exc := plainExc "<class 'AttributeError'>" [.attributeError] text
def overflowError (text : String) : Exc := plainExc "<class 'OverflowError'>" [.overflowError] text
def indexError (text : String) : Exc := plainExc "<class 'IndexError'>" [.indexError] text

/-- What `asyncio.wait_for`, and the total timeout of an aiohttp session,
raise when the time is up. -/
def timeoutError : Exc := plainExc "<class 'TimeoutError'>" [.timeoutError] ""

/-- `SentinelDomainError.__str__`. -/
def domainText (errorCode message : String) : String :=
  if errorCode.isEmpty then message else "[" ++ errorCode ++ "] " ++ message

def configError (message : String) : Exc :=
  plainExc "<class 'src.utils.exceptions.ConfigError'>" [.configError, .sentinelDomainError]
    (domainText "CONFIG_ERROR" message)

def ingestionError (message : String) (retryable : Bool := true)
    (errorCode : String := "INGESTION_ERROR") : Exc :=
  plainExc "<class 'src.utils.exceptions.IngestionError'>" [.ingestionError, .sentinelDomainError]
    (domainText errorCode message) retryable

/-- `DispatchError`: any `error_code` it is given is dropped. -/
def dispatchError (message : String) (retryable : Bool := false) : Exc :=
  plainExc "<class 'src.utils.exceptions.DispatchError'>" [.dispatchError, .sentinelDomainError]
    (domainText "DISPATCH_ERROR" message) retryable

/-! ## Numbers -/

/-- A float: finite ones by their exact value. -/
inductive PyFloat
  | finite (x : ℚ)
  | inf | negInf | nan
  deriving DecidableEq, Repr

namespace PyFloat

/-- `a < b`. -/
def lt : PyFloat → PyFloat → Bool
  | .finite x, .finite y => decide (x < y)
  | .nan, _ | _, .nan => false
  | .inf, _ | _, .negInf => false
  | _, .inf | .negInf, _ => true

/-- `a <= b`. -/
def le : PyFloat → PyFloat → Bool
  | .finite x, .finite y => decide (x ≤ y)
  | .nan, _ | _, .nan => false
  | .negInf, _ | _, .inf => true
  | _, .negInf | .inf, _ => false

@[simp] theorem lt_finite (x y : ℚ) : lt (.finite x) (.finite y) = decide (x < y) := rfl
@[simp] theorem le_finite (x y : ℚ) : le (.finite x) (.finite y) = decide (x ≤ y) := rfl

/-- Short of `nan`, one comparison is the other's negation. -/
theorem le_eq_not_lt {a b : PyFloat} (ha : a ≠ .nan) (hb : b ≠ .nan) : le a b = !lt b a := by
  cases a <;> cases b <;> first | exact absurd rfl ha | exact absurd rfl hb | rfl | skip
  rw [le_finite, lt_finite, ← decide_not, decide_eq_decide, not_lt]

/-- What is less than a number is less than any later one. -/
theorem lt_mono {a : PyFloat} {x y : ℚ} (hxy : x ≤ y) (h : a.lt (.finite x) = true) :
    a.lt (.finite y) = true := by
  cases a with
  | finite r =>
    simp only [lt_finite, decide_eq_true_eq] at h ⊢
    exact lt_of_lt_of_le h hxy
  | inf | nan => simp [lt] at h
  | negInf => rfl

theorem le_mono {a : PyFloat} {x y : ℚ} (hxy : x ≤ y) (h : a.le (.finite x) = true) :
    a.le (.finite y) = true := by
  cases a with
  | finite r =>
    simp only [le_finite, decide_eq_true_eq] at h ⊢
    exact le_trans h hxy
  | inf | nan => simp [le] at h
  | negInf => rfl

theorem le_antitone {a : PyFloat} {x y : ℚ} (hyx : y ≤ x) (h : le (.finite x) a = true) :
    le (.finite y) a = true := by
  cases a with
  | finite r =>
    simp only [le_finite, decide_eq_true_eq] at h ⊢
    exact le_trans hyx h
  | nan | negInf => simp [le] at h
  | inf => rfl

theorem le_of_lt {a : PyFloat} {x : ℚ} (h : a.lt (.finite x) = true) : a.le (.finite x) = true := by
  cases a with
  | finite r =>
    simp only [lt_finite, le_finite, decide_eq_true_eq] at h ⊢
    exact Rat.le_of_lt h
  | inf | nan => simp [lt] at h
  | negInf => rfl

/-- The two comparisons differ only at equality. -/
theorem lt_of_le {a : PyFloat} {x : ℚ} (hne : a ≠ .finite x) (h : a.le (.finite x) = true) :
    a.lt (.finite x) = true := by
  cases a with
  | finite r =>
    simp only [lt_finite, le_finite, decide_eq_true_eq] at h ⊢
    exact lt_of_le_of_ne h fun hr => hne (by rw [hr])
  | inf | nan => simp [le] at h
  | negInf => rfl

end PyFloat

/-- Integers from here on do not fit a float, and decimals round to infinity. -/
def floatLimit : ℚ := 2 ^ 1024 - 2 ^ 970

/-! ### Digits and blanks -/

/-- The decimal digits of Unicode by their zeros: the nine others follow. -/
def decimalZeros : List ℕ :=
  [0x30, 0x660, 0x6f0, 0x7c0, 0x966, 0x9e6, 0xa66, 0xae6, 0xb66, 0xbe6, 0xc66, 0xce6, 0xd66, 0xde6, 0xe50, 0xed0,
    0xf20, 0x1040, 0x1090, 0x17e0, 0x1810, 0x1946, 0x19d0, 0x1a80, 0x1a90, 0x1b50, 0x1bb0, 0x1c40, 0x1c50, 0xa620,
    0xa8d0, 0xa900, 0xa9d0, 0xa9f0, 0xaa50, 0xabf0, 0xff10, 0x104a0, 0x10d30, 0x11066, 0x110f0, 0x11136, 0x111d0,
    0x112f0, 0x11450, 0x114d0, 0x11650, 0x116c0, 0x11730, 0x118e0, 0x11950, 0x11c50, 0x11d50, 0x11da0, 0x11f50,
    0x16a60, 0x16ac0, 0x16b50, 0x1d7ce, 0x1d7d8, 0x1d7e2, 0x1d7ec, 0x1d7f6, 0x1e140, 0x1e2f0, 0x1e4f0, 0x1e950,
    0x1fbf0]

/-- The value of a decimal digit. -/
def digitValue (c : Char) : Option ℕ :=
  (decimalZeros.find? fun z => decide (z ≤ c.toNat ∧ c.toNat < z + 10)).map (c.toNat - ·)

/-- The digits that are no decimal digits, such as superscripts: the first and
the last of each range. -/
def otherDigits : List (ℕ × ℕ) :=
  [(0xb2, 0xb3), (0xb9, 0xb9), (0x1369, 0x1371), (0x19da, 0x19da), (0x2070, 0x2070), (0x2074, 0x2079),
    (0x2080, 0x2089), (0x2460, 0x2468), (0x2474, 0x247c), (0x2488, 0x2490), (0x24ea, 0x24ea), (0x24f5, 0x24fd),
    (0x24ff, 0x24ff), (0x2776, 0x277e), (0x2780, 0x2788), (0x278a, 0x2792), (0x10a40, 0x10a43), (0x10e60, 0x10e68),
    (0x11052, 0x1105a), (0x1f100, 0x1f10a)]

/-- `s.isdigit()`. -/
def isDigits (s : String) : Bool :=
  !s.isEmpty && s.toList.all fun c =>
    (digitValue c).isSome || otherDigits.any fun range => decide (range.1 ≤ c.toNat ∧ c.toNat ≤ range.2)

/-- `c.isspace()`. -/
def isSpace (c : Char) : Bool :=
  decide ((9 ≤ c.toNat ∧ c.toNat ≤ 13) ∨ (28 ≤ c.toNat ∧ c.toNat ≤ 32) ∨ (8192 ≤ c.toNat ∧ c.toNat ≤ 8202) ∨
    c.toNat ∈ [133, 160, 5760, 8232, 8233, 8239, 8287, 12288])

/-- `not s.strip()`. -/
def isBlank (s : String) : Bool := s.toList.all isSpace

/-! ### Numerals -/

/-- Digits with single underscores between them: the number read, how many
digits, and what is left. -/
def scanDigits (acc n : Nat) : List Char → Nat × Nat × List Char
  | [] => (acc, n, [])
  | c :: cs => match digitValue c with
    | some k => scanDigits (acc * 10 + k) (n + 1) cs
    | none =>
      if c = '_' ∧ 0 < n then
        match cs with
        | [] => (acc, n, [c])
        | d :: ds => match digitValue d with
          | some k => scanDigits (acc * 10 + k) (n + 1) ds
          | none => (acc, n, c :: d :: ds)
      else (acc, n, c :: cs)

/-- An optional sign: whether the number is negative, and the rest. -/
def scanSign : List Char → Bool × List Char
  | '-' :: cs => (true, cs)
  | '+' :: cs => (false, cs)
  | cs => (false, cs)

/-- A blank around a numeral. The four information separators are none to
`int` and `float`, though `str.strip` takes them away. -/
def isNumeralSpace (c : Char) : Bool := isSpace c && !decide (28 ≤ c.toNat ∧ c.toNat ≤ 31)

/-- A numeral without the blanks around it. -/
def strip (s : List Char) : List Char :=
  ((s.dropWhile isNumeralSpace).reverse.dropWhile isNumeralSpace).reverse

/-- The integer `int(s)` reads. -/
def parseInt (s : String) : Option ℤ :=
  let (neg, cs) := scanSign (strip s.toList)
  match scanDigits 0 0 cs with
  | (k, n, []) => if n = 0 then none else some (if neg then -(k : ℤ) else k)
  | _ => none

/-- An optional exponent part: `none` when it is malformed. -/
def scanExponent : List Char → Option ℤ
  | [] => some 0
  | c :: cs =>
    if c = 'e' ∨ c = 'E' then
      let (neg, ds) := scanSign cs
      match scanDigits 0 0 ds with
      | (k, n, []) => if n = 0 then none else some (if neg then -(k : ℤ) else k)
      | _ => none
    else none

/-- The float `float(s)` reads. -/
def parseFloat (s : String) : Option PyFloat :=
  let (neg, cs) := scanSign (strip s.toList)
  let word := (cs.map Char.toLower)
  if word = "inf".toList ∨ word = "infinity".toList then some (if neg then .negInf else .inf)
  else if word = "nan".toList then some .nan
  else
    let (k, n, rest) := scanDigits 0 0 cs
    let (k, m, rest) : Nat × Nat × List Char := match rest with
      | '.' :: ds => match scanDigits 0 0 ds with
        | (f, m, tail) => (k * 10 ^ m + f, m, tail)
      | _ => (k, 0, rest)
    if n + m = 0 then none
    else (scanExponent rest).map fun e =>
      let x : ℚ := (k : ℚ) * 10 ^ (e - (m : ℤ))
      if x < floatLimit then .finite (if neg then -x else x)
      else if neg then .negInf else .inf

/-! ## Values -/

/-- A value of a `Dict[str, Any]`. Of a URL that pydantic has validated only
the text is told. -/
inductive PyVal
  | none
  | bool (b : Bool)
  | int (n : ℤ)
  | float (x : PyFloat)
  | str (s : String)
  | list (xs : List PyVal)
  | dict (kvs : List (String × PyVal))
  | anyHttpUrl (text : String)
  deriving Repr

/-- A configuration as the executor receives it. -/
abbrev PyDict := List (String × PyVal)

/-- `d.get(key)`; a missing key is told apart from `None`. -/
def PyDict.get (d : PyDict) (key : String) : Option PyVal := List.lookup key d

namespace PyVal

/-- `bool(v)`. -/
def truthy : PyVal → Bool
  | .none => false
  | .bool b => b
  | .int n => n ≠ 0
  | .float x => x ≠ .finite 0
  | .str s => !s.isEmpty
  | .list xs => !xs.isEmpty
  | .dict kvs => !kvs.isEmpty
  | .anyHttpUrl _ => true

/-- `int(v)`. -/
def toInt : PyVal → Except Exc ℤ
  | .bool b => .ok (if b then 1 else 0)
  | .int n => .ok n
  | .float (.finite x) => .ok (if 0 ≤ x then ⌊x⌋ else ⌈x⌉)
  | .float .nan => .error (valueError "cannot convert float NaN to integer")
  | .float _ => .error (overflowError "cannot convert float infinity to integer")
  | .str s => match parseInt s with
    | some n => .ok n
    | Option.none => .error (valueError ("invalid literal for int() with base 10: '" ++ s ++ "'"))
  | _ => .error (typeError "int() argument must be a string, a bytes-like object or a real number")

/-- `float(v)`. -/
def toFloat : PyVal → Except Exc PyFloat
  | .bool b => .ok (.finite (if b then 1 else 0))
  | .int n => if |(n : ℚ)| < floatLimit then .ok (.finite n)
    else .error (overflowError "int too large to convert to float")
  | .float x => .ok x
  | .str s => match parseFloat s with
    | some x => .ok x
    | Option.none => .error (valueError ("could not convert string to float: '" ++ s ++ "'"))
  | _ => .error (typeError "float() argument must be a string or a real number")

theorem toFloat_int_of_lt {n : ℤ} (h : |(n : ℚ)| < floatLimit) : toFloat (.int n) = .ok (.finite n) := if_pos h

theorem toFloat_int_of_not_lt {n : ℤ} (h : ¬|(n : ℚ)| < floatLimit) :
    toFloat (.int n) = .error (overflowError "int too large to convert to float") := if_neg h

/-- `type(v).__name__`. -/
def typeName : PyVal → String
  | .none => "NoneType"
  | .bool _ => "bool"
  | .int _ => "int"
  | .float _ => "float"
  | .str _ => "str"
  | .list _ => "list"
  | .dict _ => "dict"
  | .anyHttpUrl _ => "AnyHttpUrl"

end PyVal

/-- The texts of values, where the program or a library prints one: `str(v)`,
`repr(v)`, `f"{x:.1f}"`, and that of pydantic's `ValidationError` for a model
and an input. -/
structure Render where
  str : PyVal → String
  repr : PyVal → String
  fixed1 : PyFloat → String
  validationError : String → PyVal → String

/-- `str(v)`, where a text is itself and a URL has its own. -/
def Render.text (r : Render) : PyVal → String
  | .str s | .anyHttpUrl s => s
  | v => r.str v

/-- Texts of values, for floats that are whole numbers. -/
def wholeTexts : Render where
  str
    | .str s => s
    | .int n => toString n
    | .float (.finite x) => toString x.num ++ ".0"
    | v => v.typeName
  repr := PyVal.typeName
  fixed1 _ := "0.0"
  validationError model _ := "1 validation error for " ++ model

end SentinelFlow
