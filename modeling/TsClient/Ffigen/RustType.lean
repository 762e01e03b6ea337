import TsClient.Rust
import Mathlib.Data.List.Basic

/-!
The type names of `ffigen` (`utils/ffigen/src/lib.rs`). `RustType::from_with_wrappers` reads
a Rust type as the text `syn` prints for it: it removes the whitespace, looks the name up in
the wrapper map, and then matches the text against the builtin names and the prefixes
`Option<`, `HashSet<`, `BTreeSet<`, `Vec<`, `[`, `HashMap<` and `BTreeMap<`, calling itself on
the text between the brackets. Strings are lists of characters; `len`, `find` and slicing
count UTF-8 bytes, as `str` does, and a slice that does not fall on character boundaries
panics.

The guards of the integer and float arms read `n[1..]` as the tail of `n`: they look at it only
after its first character was found to be `u`, `i` or `f`, one byte long. The nested calls run
on fuel, one unit per call, and `from_with_wrappers` gives them the length of the text plus one:
every nested call is on a shorter text, so that is always enough (`fromWithWrappersAux_isSome`).

Some names leave the type tree (`fromWithWrappers_off_grammar`). `usize` and `isize` fail the
`u8` parse of their suffix and fall through to a struct of that name. A map nested in a map's
key or value is split at its first comma, and the call on the part `HashMap<u8` finds no second
part to unwrap. An array of fixed-size arrays is cut at its first `;`, and its element is read
from `[u8`.
-/

namespace TsClient.Ffigen

/-- `char::is_whitespace`: the characters of the Unicode `White_Space` property. -/
def isWhitespace (c : Char) : Bool :=
  let n := c.toNat
  (0x09 ≤ n && n ≤ 0x0D) || n == 0x20 || n == 0x85 || n == 0xA0 || n == 0x1680 ||
    (0x2000 ≤ n && n ≤ 0x200A) || n == 0x2028 || n == 0x2029 || n == 0x202F || n == 0x205F ||
    n == 0x3000

def byteLen : List Char → Nat
  | [] => 0
  | c :: s => byteLen s + c.utf8Size

def find : List Char → Char → Option Nat
  | [], _ => none
  | d :: s, c => if d = c then some 0 else (find s c).map (d.utf8Size + ·)

def splitAtByte : List Char → Nat → Option (List Char × List Char)
  | s, 0 => some ([], s)
  | [], _ + 1 => none
  | c :: s, i + 1 =>
    if c.utf8Size ≤ i + 1 then (splitAtByte s (i + 1 - c.utf8Size)).map fun (p, r) => (c :: p, r)
    else none

/-- `&s[a..b]`: panics unless `a ≤ b ≤ s.len()` and both fall between characters. -/
def slice (s : List Char) (a b : Nat) : Except Failure (List Char) :=
  if a ≤ b then
    match splitAtByte s b with
    | none => .error (.panic "byte index is out of bounds or not a char boundary")
    | some (p, _) =>
      match splitAtByte p a with
      | none => .error (.panic "byte index is out of bounds or not a char boundary")
      | some (_, mid) => .ok mid
  else .error (.panic "begin <= end when slicing")

/-- `u8::from_str`: an optional `+`, then at least one decimal digit, for a value below 256. -/
def parseU8 (s : List Char) : Option UInt8 :=
  let digits := match s with
    | '+' :: ds => ds
    | ds => ds
  if digits = [] then none
  else
    match digits.foldlM (fun v d => if d.isDigit then some (10 * v + (d.toNat - '0'.toNat))
        else none) 0 with
    | some v => if v < 256 then some v.toUInt8 else none
    | none => none

theorem splitAtByte_eq_some : ∀ {s : List Char} {i : Nat} {p r : List Char},
    splitAtByte s i = some (p, r) → s = p ++ r ∧ byteLen p = i
  | s, 0, p, r, h => by
    simp only [splitAtByte, Option.some.injEq, Prod.mk.injEq] at h
    obtain ⟨rfl, rfl⟩ := h
    exact ⟨rfl, rfl⟩
  | [], _ + 1, _, _, h => by simp [splitAtByte] at h
  | c :: s, i + 1, p, r, h => by
    simp only [splitAtByte] at h
    split_ifs at h with hc
    obtain ⟨⟨p', r'⟩, h', heq⟩ := Option.map_eq_some'.mp h
    obtain ⟨rfl, rfl⟩ := Prod.mk.inj heq
    obtain ⟨rfl, hlen⟩ := splitAtByte_eq_some h'
    refine ⟨rfl, ?_⟩
    simp only [byteLen] at hlen ⊢
    omega

theorem slice_length_lt {s mid : List Char} {a b : Nat} (h : slice s a b = .ok mid) (ha : 0 < a) :
    mid.length < s.length := by
  unfold slice at h
  split_ifs at h
  split at h
  · cases h
  · rename_i p r hp
    split at h
    · cases h
    · rename_i p' mid' hp'
      cases h
      obtain ⟨rfl, -⟩ := splitAtByte_eq_some hp
      obtain ⟨rfl, hlen⟩ := splitAtByte_eq_some hp'
      cases p' with
      | nil => simp [byteLen] at hlen; omega
      | cons c p' => simp only [List.length_append, List.length_cons]; omega

inductive PrimitiveType
  | bool
  | char
  /-- `Int(signed, size)`; a size of `None` stands for `isize` and `usize`. -/
  | int (signed : Bool) (size : Option UInt8)
  | float (size : UInt8)
  deriving DecidableEq, Repr

structure Wrapper where
  outer : List Char
  toU64 : Option (List Char)
  fromU64 : Option (List Char)
  deriving DecidableEq, Repr

mutual

inductive RustType
  | mk (name : List Char) (wrapper : Option Wrapper) (content : TypeContent)

inductive TypeContent
  | struct (fields : List (List Char × RustType))
  | enum (possibilities : List (List Char × List (List Char × RustType)))
  | builtin (t : BuiltinType)

inductive BuiltinType
  | nothing
  | primitive (t : PrimitiveType)
  | string
  | str
  | option (t : RustType)
  | array (t : RustType)
  | map (k t : RustType)
  | set (t : RustType)

end

def RustType.fromBuiltin (t : BuiltinType) : RustType := .mk [] none (.builtin t)

def RustType.fromPrimitive (t : PrimitiveType) : RustType := .fromBuiltin (.primitive t)

namespace RustType

/-- The nested call of an arm with one type argument, under the builtin constructor `k`. -/
def nest (recurse : List Char → Option (Except Failure RustType)) (inner : Except Failure (List Char))
    (k : RustType → BuiltinType) : Option (Except Failure RustType) :=
  match inner with
  | .error f => some (.error f)
  | .ok inner => (recurse inner).map fun r => r.map fun t => .fromBuiltin (k t)

/-- `&n[n.find('<').unwrap() + 1..n.len() - 1]`: the text after the first `<`. -/
def angleInner (n : List Char) : Except Failure (List Char) :=
  match find n '<' with
  | none => .error (.panic "called `Option::unwrap()` on a `None` value")
  | some i => slice n (i + 1) (byteLen n - 1)

/-- `RustType::from_with_wrappers` with at most `fuel` nested calls; `none` when it runs out. -/
def fromWithWrappersAux (wrappers : List (List Char × RustType)) :
    Nat → List Char → Option (Except Failure RustType)
  | 0, _ => none
  | fuel + 1, name =>
    let n := name.filter fun c => !isWhitespace c
    let recurse := fromWithWrappersAux wrappers fuel
    match wrappers.lookup n with
    | some t => some (.ok t)
    | none =>
      if n = "()".toList then some (.ok (.fromBuiltin .nothing))
      else if n = "bool".toList then some (.ok (.fromPrimitive .bool))
      else if n = "char".toList then some (.ok (.fromPrimitive .char))
      else if n = "String".toList then some (.ok (.fromBuiltin .string))
      else if n = "str".toList ∨ n = "&str".toList then some (.ok (.fromBuiltin .str))
      else if 2 ≤ byteLen n ∧ (n.head? = some 'u' ∨ n.head? = some 'i') ∧
          (parseU8 n.tail).isSome then
        some (.ok (.fromPrimitive (.int (n.head? = some 'i') (parseU8 n.tail))))
      else if 2 ≤ byteLen n ∧ n.head? = some 'f' ∧ (parseU8 n.tail).isSome then
        some (.ok (.fromPrimitive (.float ((parseU8 n.tail).getD 0))))
      else if "Option<".toList.isPrefixOf n then nest recurse (angleInner n) .option
      else if "HashSet<".toList.isPrefixOf n || "BTreeSet<".toList.isPrefixOf n then
        nest recurse (angleInner n) .set
      else if "Vec<".toList.isPrefixOf n then nest recurse (angleInner n) .array
      else if n.head? = some '[' then
        nest recurse (slice n 1 ((find n ';').getD (byteLen n - 1))) .array
      else if "HashMap<".toList.isPrefixOf n || "BTreeMap<".toList.isPrefixOf n then
        match angleInner n with
        | .error f => some (.error f)
        | .ok inner =>
          match (inner.splitOn ',')[0]?, (inner.splitOn ',')[1]? with
          | none, _ | some _, none => some (.error (.panic "called `Option::unwrap()` on a `None` value"))
          | some key, some content =>
            match recurse key with
            | none => none
            | some (.error f) => some (.error f)
            | some (.ok k) => (recurse content).map fun r => r.map fun t => .fromBuiltin (.map k t)
      else some (.ok (.mk n none (.struct [])))

def fromWithWrappers (name : List Char) (wrappers : List (List Char × RustType)) :
    Option (Except Failure RustType) :=
  fromWithWrappersAux wrappers (name.length + 1) name

theorem angleInner_length_lt {n inner : List Char} (h : angleInner n = .ok inner) :
    inner.length < n.length := by
  unfold angleInner at h
  split at h
  · cases h
  · exact slice_length_lt h (Nat.succ_pos _)

theorem mem_intersperse_of_mem {α : Type} {sep : α} : ∀ {L : List α} {p : α},
    p ∈ L → p ∈ L.intersperse sep
  | [], _, h => absurd h (List.not_mem_nil _)
  | [_], _, h => h
  | x :: y :: zs, p, h => by
    rw [List.intersperse_cons₂]
    rcases List.mem_cons.mp h with rfl | h
    · exact List.mem_cons_self _ _
    · exact List.mem_cons_of_mem _ (List.mem_cons_of_mem _ (mem_intersperse_of_mem h))

theorem length_le_of_mem_splitOn {l p : List Char} (h : p ∈ l.splitOn ',') : p.length ≤ l.length := by
  conv_rhs => rw [← List.intercalate_splitOn l ',']
  exact (List.sublist_flatten_of_mem (mem_intersperse_of_mem h)).length_le

theorem isSome_ite {α : Type} {c : Prop} [Decidable c] {a b : Option α} (ha : a.isSome)
    (hb : b.isSome) : (if c then a else b).isSome := by
  split <;> assumption

theorem nest_isSome {recurse : List Char → Option (Except Failure RustType)}
    {inner : Except Failure (List Char)} {k : RustType → BuiltinType}
    (h : ∀ i, inner = .ok i → (recurse i).isSome) : (nest recurse inner k).isSome := by
  cases inner with
  | error f => rfl
  | ok i => simpa [nest] using h i rfl

/-- More fuel than the length of the text never runs out. -/
theorem fromWithWrappersAux_isSome (wrappers : List (List Char × RustType)) :
    ∀ (fuel : Nat) (name : List Char), name.length < fuel →
      (fromWithWrappersAux wrappers fuel name).isSome
  | 0, _, h => absurd h (Nat.not_lt_zero _)
  | fuel + 1, name, h => by
    have hn : (name.filter fun c => !isWhitespace c).length ≤ fuel :=
      (List.length_filter_le _ _).trans (by omega)
    have ih : ∀ i : List Char, i.length < (name.filter fun c => !isWhitespace c).length →
        (fromWithWrappersAux wrappers fuel i).isSome :=
      fun i hi => fromWithWrappersAux_isSome wrappers fuel i (by omega)
    rw [fromWithWrappersAux]
    generalize name.filter (fun c => !isWhitespace c) = n at hn ih
    split
    · rfl
    repeat' refine isSome_ite ?_ ?_
    all_goals first
      | rfl
      | exact nest_isSome fun i hi => ih i (angleInner_length_lt hi)
      | exact nest_isSome fun i hi => ih i (slice_length_lt hi Nat.one_pos)
      | skip
    split
    · rfl
    rename_i inner hinner
    split
    · rfl
    · rfl
    rename_i key content hkey hcontent
    have hlt := angleInner_length_lt hinner
    have hk := length_le_of_mem_splitOn (List.getElem?_mem hkey)
    have hc := length_le_of_mem_splitOn (List.getElem?_mem hcontent)
    obtain ⟨r, hr⟩ := Option.isSome_iff_exists.mp (ih key (by omega))
    rw [hr]
    rcases r with f | k
    · rfl
    · simpa using ih content (by omega)

theorem fromWithWrappers_isSome (name : List Char) (wrappers : List (List Char × RustType)) :
    (fromWithWrappers name wrappers).isSome :=
  fromWithWrappersAux_isSome wrappers _ name (Nat.lt_succ_self _)

/-- `impl<T: AsRef<str>> From<T> for RustType`: no wrappers. -/
def ofName (name : List Char) : Option (Except Failure RustType) := fromWithWrappers name []

example : ofName "u8".toList = some (.ok (.fromPrimitive (.int false (some 8)))) := rfl

/-- Where the reading leaves the type tree: `usize`, `isize`, maps in maps, arrays of arrays. -/
theorem fromWithWrappers_off_grammar :
    ofName "usize".toList = some (.ok (.mk "usize".toList none (.struct []))) ∧
      ofName "isize".toList = some (.ok (.mk "isize".toList none (.struct []))) ∧
      ofName "HashMap<HashMap<u8,u8>,u8>".toList =
        some (.error (.panic "called `Option::unwrap()` on a `None` value")) ∧
      ofName "HashMap<u8, HashMap<u8, u8>>".toList =
        some (.error (.panic "called `Option::unwrap()` on a `None` value")) ∧
      ofName "[[u8;4];2]".toList =
        some (.ok (.fromBuiltin (.array (.fromBuiltin (.array (.mk "u".toList none (.struct []))))))) :=
  ⟨rfl, rfl, rfl, rfl, rfl⟩

end RustType

end TsClient.Ffigen
