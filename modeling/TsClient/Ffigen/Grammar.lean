import TsClient.Ffigen.RustType

/-!
The type expressions `from_with_wrappers` is meant to read, and the trees it should read them
as: `P | String | str | &str | () | Name | Option<T> | Vec<T> | [T] | [T;N] | HashSet<T> |
BTreeSet<T> | HashMap<T,T> | BTreeMap<T,T>`, printed with or without whitespace between tokens.
This grammar and its trees are written from the intended reading, not from the code; the
theorem compares the code with them.

The code reads every expression right except three families (`fromWithWrappers_off_grammar`):
`usize` and `isize`, a map inside a map's key or value, and a fixed-size array inside an
array's element. Away from them it returns the tree, without panicking
(`fromWithWrappers_render`): the text between the outermost brackets is exactly the argument,
a map's arguments hold no comma, and an array's element holds no `;`.
-/

namespace TsClient.Ffigen

open RustType

/-! ### Strings by bytes -/

@[simp] theorem byteLen_nil : byteLen [] = 0 := rfl

@[simp] theorem byteLen_cons (c : Char) (s : List Char) :
    byteLen (c :: s) = byteLen s + c.utf8Size :=
  rfl

@[simp] theorem byteLen_append (a b : List Char) : byteLen (a ++ b) = byteLen a + byteLen b := by
  induction a with
  | nil => simp
  | cons c a ih => simp [ih]; omega

theorem find_of_not_mem {c : Char} : ∀ {a : List Char}, c ∉ a → find a c = none
  | [], _ => rfl
  | d :: a, h => by
    rw [List.mem_cons, not_or] at h
    rw [find, if_neg (Ne.symm h.1), find_of_not_mem h.2, Option.map_none']

theorem find_append_of_not_mem {c : Char} {b : List Char} :
    ∀ {a : List Char}, c ∉ a → find (a ++ c :: b) c = some (byteLen a)
  | [], _ => by simp [find]
  | d :: a, h => by
    rw [List.mem_cons, not_or] at h
    rw [List.cons_append, find, if_neg (Ne.symm h.1), find_append_of_not_mem h.2]
    simp only [Option.map_some', byteLen_cons]
    congr 1
    omega

theorem splitAtByte_append : ∀ (p r : List Char), splitAtByte (p ++ r) (byteLen p) = some (p, r)
  | [], r => by cases r <;> rfl
  | c :: p, r => by
    obtain ⟨k, hk⟩ : ∃ k, byteLen (c :: p) = k + 1 :=
      ⟨byteLen p + c.utf8Size - 1, by have := c.utf8Size_pos; simp; omega⟩
    rw [List.cons_append, hk, splitAtByte, if_pos (by simp at hk; omega),
      show k + 1 - c.utf8Size = byteLen p by simp at hk; omega, splitAtByte_append]
    rfl

theorem slice_append (p m r : List Char) :
    slice (p ++ m ++ r) (byteLen p) (byteLen p + byteLen m) = .ok m := by
  rw [slice, if_pos (Nat.le_add_right _ _), ← byteLen_append, splitAtByte_append]
  dsimp only
  rw [splitAtByte_append]

theorem slice_bracket (x r : List Char) : slice ('[' :: x ++ r) 1 (byteLen ('[' :: x)) = .ok x := by
  have h := slice_append ['['] x r
  rwa [← byteLen_append] at h

theorem angleInner_eq {pre : List Char} (hpre : '<' ∉ pre) (x : List Char) :
    angleInner (pre ++ '<' :: x ++ ['>']) = .ok x := by
  rw [angleInner, List.append_assoc, List.cons_append, find_append_of_not_mem hpre]
  dsimp only
  have h := slice_append (pre ++ ['<']) x ['>']
  simp only [List.append_assoc, List.singleton_append, byteLen_append, byteLen_cons, byteLen_nil,
    Nat.zero_add] at h ⊢
  convert h using 2
  have : Char.utf8Size '>' = 1 := rfl
  omega

/-! ### Digits and letters -/

theorem mem_of_parseU8 {s : List Char} (h : (parseU8 s).isSome) :
    s ≠ [] ∧ ∀ c ∈ s, c.isDigit ∨ c = '+' := by
  have hdigits : ∀ (l : List Char) (v : Nat) (w : Nat),
      l.foldlM (fun v d => if d.isDigit then some (10 * v + (d.toNat - '0'.toNat)) else none) v =
        some w → ∀ c ∈ l, c.isDigit := by
    intro l
    induction l with
    | nil => simp
    | cons d l ih =>
      intro v w hw c hc
      simp only [List.foldlM_cons] at hw
      split_ifs at hw with hd
      · rcases List.mem_cons.mp hc with rfl | hc
        · exact hd
        · exact ih _ w hw c hc
      · simp at hw
  unfold parseU8 at h
  dsimp only at h
  split_ifs at h with hnil
  · simp at h
  split at h
  · rename_i v hv
    have hall := hdigits _ 0 v hv
    revert hnil hall
    split
    · exact fun _ hall =>
        ⟨List.cons_ne_nil _ _, fun c hc => (List.mem_cons.mp hc).elim .inr (.inl ∘ hall c)⟩
    · exact fun hnil hall => ⟨hnil, fun c hc => .inl (hall c hc)⟩
  · simp at h

theorem toNat_of_isAlphanum {c : Char} (h : c.isAlphanum ∨ c = '_') :
    48 ≤ c.toNat ∧ c.toNat ≤ 122 := by
  rcases h with h | rfl
  · simp [Char.isAlphanum, Char.isAlpha, Char.isUpper, Char.isLower, Char.isDigit, UInt32.le_def,
      BitVec.le_def] at h
    simp only [Char.toNat, UInt32.toNat]
    omega
  · decide

theorem isWhitespace_of_isAlphanum {c : Char} (h : c.isAlphanum ∨ c = '_') :
    isWhitespace c = false := by
  have := toNat_of_isAlphanum h
  simp only [isWhitespace, Bool.or_eq_false_iff, Bool.and_eq_false_imp, decide_eq_true_eq,
    decide_eq_false_iff_not, not_le, beq_eq_false_iff_ne, ne_eq]
  omega

/-! ### The grammar -/

/-- The widths of the integer names `u8` … `u128` and `i8` … `i128`. -/
inductive IntWidth
  | w8 | w16 | w32 | w64 | w128
  deriving DecidableEq, Repr

def IntWidth.bits : IntWidth → UInt8
  | .w8 => 8 | .w16 => 16 | .w32 => 32 | .w64 => 64 | .w128 => 128

def IntWidth.digits : IntWidth → List Char
  | .w8 => "8".toList | .w16 => "16".toList | .w32 => "32".toList | .w64 => "64".toList
  | .w128 => "128".toList

inductive FloatWidth
  | w32 | w64
  deriving DecidableEq, Repr

def FloatWidth.bits : FloatWidth → UInt8
  | .w32 => 32 | .w64 => 64

def FloatWidth.digits : FloatWidth → List Char
  | .w32 => "32".toList | .w64 => "64".toList

/-- The type expressions of the grammar. -/
inductive TypeExpr
  | bool
  | char
  /-- `u8` … `u128`, or `i8` … `i128` when signed. -/
  | int (signed : Bool) (w : IntWidth)
  /-- `usize`, or `isize` when signed. -/
  | size (signed : Bool)
  | float (w : FloatWidth)
  | string
  | str
  | refStr
  | unit
  | name (n : List Char)
  | option (t : TypeExpr)
  | vec (t : TypeExpr)
  | slice (t : TypeExpr)
  /-- `[T;N]`, with the length `N` as written. -/
  | array (t : TypeExpr) (len : List Char)
  | hashSet (t : TypeExpr)
  | bTreeSet (t : TypeExpr)
  | hashMap (k v : TypeExpr)
  | bTreeMap (k v : TypeExpr)
  deriving Repr

/-- An identifier of ASCII letters, digits and `_`: no builtin name, nor `u`, `i`, `f` and digits. -/
def ValidName (n : List Char) : Prop :=
  n ≠ [] ∧ (∀ c ∈ n, c.isAlphanum ∨ c = '_') ∧
    n ≠ "bool".toList ∧ n ≠ "char".toList ∧ n ≠ "String".toList ∧ n ≠ "str".toList ∧
    ¬((n.head? = some 'u' ∨ n.head? = some 'i' ∨ n.head? = some 'f') ∧ n.tail ≠ [] ∧
      ∀ c ∈ n.tail, c.isDigit)

def angled (w : String) (args : List Char) : List Char := w.toList ++ '<' :: args ++ ['>']

theorem angleInner_angled {w : String} (hw : '<' ∉ w.toList) (x : List Char) :
    angleInner (angled w x) = .ok x :=
  angleInner_eq hw x

namespace TypeExpr

/-- The expression printed without whitespace. -/
def render : TypeExpr → List Char
  | bool => "bool".toList
  | char => "char".toList
  | int s w => (if s then 'i' else 'u') :: w.digits
  | size s => (if s then 'i' else 'u') :: "size".toList
  | float w => 'f' :: w.digits
  | string => "String".toList
  | str => "str".toList
  | refStr => "&str".toList
  | unit => "()".toList
  | name n => n
  | option t => angled "Option" t.render
  | vec t => angled "Vec" t.render
  | slice t => '[' :: t.render ++ [']']
  | array t len => '[' :: t.render ++ ';' :: len ++ [']']
  | hashSet t => angled "HashSet" t.render
  | bTreeSet t => angled "BTreeSet" t.render
  | hashMap k v => angled "HashMap" (k.render ++ ',' :: v.render)
  | bTreeMap k v => angled "BTreeMap" (k.render ++ ',' :: v.render)

/-- The tree the expression stands for. -/
def tree : TypeExpr → RustType
  | bool => .fromPrimitive .bool
  | char => .fromPrimitive .char
  | int s w => .fromPrimitive (.int s (some w.bits))
  | size s => .fromPrimitive (.int s none)
  | float w => .fromPrimitive (.float w.bits)
  | string => .fromBuiltin .string
  | str | refStr => .fromBuiltin .str
  | unit => .fromBuiltin .nothing
  | name n => .mk n none (.struct [])
  | option t => .fromBuiltin (.option t.tree)
  | vec t | slice t | array t _ => .fromBuiltin (.array t.tree)
  | hashSet t | bTreeSet t => .fromBuiltin (.set t.tree)
  | hashMap k v | bTreeMap k v => .fromBuiltin (.map k.tree v.tree)

def hasMap : TypeExpr → Bool
  | option t | vec t | slice t | array t _ | hashSet t | bTreeSet t => t.hasMap
  | hashMap _ _ | bTreeMap _ _ => true
  | _ => false

def hasArray : TypeExpr → Bool
  | option t | vec t | slice t | hashSet t | bTreeSet t => t.hasArray
  | array _ _ => true
  | hashMap k v | bTreeMap k v => k.hasArray || v.hasArray
  | _ => false

/-- The expressions the code reads right: no `usize` or `isize`, no map in a map's key or value,
no fixed-size array in an array's element. -/
def Good : TypeExpr → Prop
  | size _ => False
  | name n => ValidName n
  | option t | vec t | hashSet t | bTreeSet t => t.Good
  | slice t => t.Good ∧ t.hasArray = false
  | array t len => t.Good ∧ t.hasArray = false ∧ len ≠ [] ∧ ∀ c ∈ len, c.isDigit
  | hashMap k v | bTreeMap k v => k.Good ∧ v.Good ∧ k.hasMap = false ∧ v.hasMap = false
  | _ => True

end TypeExpr

/-! ### Characters of a rendering -/

/-- No whitespace, a comma only where a map occurs (`m`), a semicolon only where an array does. -/
def Allowed (m a : Bool) (c : Char) : Bool :=
  !isWhitespace c && (c != ',' || m) && (c != ';' || a)

theorem Allowed.mono {m a m' a' : Bool} {c : Char} (h : Allowed m a c) (hm : m → m')
    (ha : a → a') : Allowed m' a' c := by
  simp only [Allowed, Bool.and_eq_true, Bool.or_eq_true] at h ⊢
  exact ⟨⟨h.1.1, h.1.2.imp_right hm⟩, h.2.imp_right ha⟩

theorem allowed_of_plain {m a : Bool} {c : Char}
    (h : isWhitespace c = false ∧ c ≠ ',' ∧ c ≠ ';') : Allowed m a c := by
  simp [Allowed, h.1, h.2.1, h.2.2]

theorem allowed_of_isAlphanum {m a : Bool} {c : Char} (h : c.isAlphanum ∨ c = '_') :
    Allowed m a c :=
  allowed_of_plain ⟨isWhitespace_of_isAlphanum h, by rintro rfl; revert h; decide,
    by rintro rfl; revert h; decide⟩

theorem allowed_comma {a : Bool} : Allowed true a ',' := by cases a <;> decide

theorem allowed_semicolon {m : Bool} : Allowed m true ';' := by cases m <;> decide

theorem allowed_angled {w : String} {x : List Char} {m a : Bool}
    (hw : ∀ c ∈ w.toList, isWhitespace c = false ∧ c ≠ ',' ∧ c ≠ ';')
    (hx : ∀ c ∈ x, Allowed m a c) : ∀ c ∈ angled w x, Allowed m a c := by
  simp only [angled, List.forall_mem_append, List.forall_mem_cons, List.mem_nil_iff, false_implies,
    implies_true, and_true]
  exact ⟨⟨fun c hc => allowed_of_plain (hw c hc), allowed_of_plain (by decide), hx⟩,
    allowed_of_plain (by decide)⟩

namespace TypeExpr

theorem render_allowed :
    ∀ {t : TypeExpr}, t.Good → ∀ c ∈ t.render, Allowed t.hasMap t.hasArray c
  | bool, _ | char, _ | string, _ | str, _ | refStr, _ | unit, _ => by decide
  | int s w, _ => by cases s <;> cases w <;> decide
  | float w, _ => by cases w <;> decide
  | size _, h => h.elim
  | name _, h => fun _ hc => allowed_of_isAlphanum (h.2.1 _ hc)
  | option _, h | vec _, h | hashSet _, h | bTreeSet _, h =>
    allowed_angled (by decide) (render_allowed h)
  | slice _, h => by
    simp only [render, hasMap, hasArray, List.forall_mem_cons, List.forall_mem_append,
      List.mem_nil_iff, false_implies, implies_true, and_true]
    exact ⟨⟨allowed_of_plain (by decide), render_allowed h.1⟩, allowed_of_plain (by decide)⟩
  | array _ _, h => by
    simp only [render, hasMap, hasArray, List.forall_mem_cons, List.forall_mem_append,
      List.mem_nil_iff, false_implies, implies_true, and_true]
    refine ⟨⟨⟨allowed_of_plain (by decide),
      fun c hc => Allowed.mono (render_allowed h.1 c hc) id fun _ => rfl⟩, allowed_semicolon,
      fun c hc => allowed_of_isAlphanum (.inl (by simp [Char.isAlphanum, h.2.2.2 c hc]))⟩,
      allowed_of_plain (by decide)⟩
  | hashMap _ _, h | bTreeMap _ _, h => allowed_angled (by decide) <| by
    simp only [List.forall_mem_append, List.forall_mem_cons, hasMap, hasArray]
    exact ⟨fun c hc => Allowed.mono (render_allowed h.1 c hc) (fun _ => rfl) fun hk => by
        rw [hk, Bool.true_or],
      allowed_comma,
      fun c hc => Allowed.mono (render_allowed h.2.1 c hc) (fun _ => rfl) fun hv => by
        rw [hv, Bool.or_true]⟩

theorem filter_render {t : TypeExpr} (h : t.Good) :
    t.render.filter (fun c => !isWhitespace c) = t.render :=
  List.filter_eq_self.mpr fun c hc => by
    have := render_allowed h c hc
    simp only [Allowed, Bool.and_eq_true] at this
    exact this.1.1

theorem comma_not_mem_render {t : TypeExpr} (h : t.Good) (hm : t.hasMap = false) :
    ',' ∉ t.render := fun hc => by
  simpa [Allowed, hm] using render_allowed h _ hc

theorem semicolon_not_mem_render {t : TypeExpr} (h : t.Good) (ha : t.hasArray = false) :
    ';' ∉ t.render := fun hc => by
  simpa [Allowed, ha] using render_allowed h _ hc

end TypeExpr

/-! ### Reading a rendering -/

theorem fromWithWrappersAux_filter (wrappers : List (List Char × RustType)) (fuel : Nat)
    (s : List Char) :
    fromWithWrappersAux wrappers fuel (s.filter fun c => !isWhitespace c) =
      fromWithWrappersAux wrappers fuel s := by
  cases fuel with
  | zero => rfl
  | succ fuel =>
    rw [fromWithWrappersAux, fromWithWrappersAux, List.filter_filter]
    simp only [Bool.and_self]

theorem splitOn_comma {k v : List Char} (hk : ',' ∉ k) (hv : ',' ∉ v) :
    (k ++ ',' :: v).splitOn ',' = [k, v] := by
  have : ([','].intercalate [k, v]).splitOn ',' = [k, v] :=
    List.splitOn_intercalate [k, v] ',' (by simp [hk, hv]) (by simp)
  simpa [List.intercalate] using this

/-- A name of the grammar falls through every arm to a struct of that name. -/
theorem fromWithWrappersAux_name {n : List Char} (hn : ValidName n) (fuel : Nat) :
    fromWithWrappersAux [] (fuel + 1) n = some (.ok (.mk n none (.struct []))) := by
  obtain ⟨-, hchars, hbool, hchar, hString, hstr, hnum⟩ := hn
  have hout : ∀ c, ¬(c.isAlphanum ∨ c = '_') → c ∉ n := fun c hc hmem => hc (hchars c hmem)
  have hpre : ∀ p : List Char, '<' ∈ p → ¬p.isPrefixOf n := fun p hp h =>
    hout '<' (by decide) ((List.isPrefixOf_iff_prefix.mp h).subset hp)
  have hdigits (h : (parseU8 n.tail).isSome) : n.tail ≠ [] ∧ ∀ c ∈ n.tail, c.isDigit := by
    obtain ⟨hne, hall⟩ := mem_of_parseU8 h
    exact ⟨hne, fun c hc => (hall c hc).resolve_right fun hp =>
      hout '+' (by decide) (hp ▸ List.mem_of_mem_tail hc)⟩
  have hunit : n ≠ "()".toList := fun h => hout '(' (by decide) (by rw [h]; decide)
  have href : n ≠ "&str".toList := fun h => hout '&' (by decide) (by rw [h]; decide)
  have hbracket : n.head? ≠ some '[' := fun h => hout '[' (by decide) (List.mem_of_mem_head? h)
  rw [fromWithWrappersAux, List.filter_eq_self.mpr fun c hc => by
    simp [isWhitespace_of_isAlphanum (hchars c hc)]]
  simp only [List.lookup_nil, Bool.or_eq_true]
  rw [if_neg hunit, if_neg hbool, if_neg hchar, if_neg hString,
    if_neg (not_or.mpr ⟨hstr, href⟩),
    if_neg fun ⟨_, hh, hp⟩ => hnum ⟨hh.elim .inl (.inr ∘ .inl), hdigits hp⟩,
    if_neg fun ⟨_, hh, hp⟩ => hnum ⟨.inr (.inr hh), hdigits hp⟩,
    if_neg (hpre "Option<".toList (by decide)),
    if_neg (not_or.mpr
      ⟨hpre "HashSet<".toList (by decide), hpre "BTreeSet<".toList (by decide)⟩),
    if_neg (hpre "Vec<".toList (by decide)),
    if_neg hbracket,
    if_neg (not_or.mpr
      ⟨hpre "HashMap<".toList (by decide), hpre "BTreeMap<".toList (by decide)⟩)]

namespace TypeExpr

/-- A good expression, read with no wrappers and enough fuel, gives its tree. -/
theorem fromWithWrappersAux_render : ∀ {t : TypeExpr}, t.Good → ∀ {fuel : Nat},
    t.render.length < fuel → fromWithWrappersAux [] fuel t.render = some (.ok t.tree)
  | _, _, 0, hlt => absurd hlt (Nat.not_lt_zero _)
  | bool, _, _ + 1, _ | char, _, _ + 1, _ | string, _, _ + 1, _ | str, _, _ + 1, _
  | refStr, _, _ + 1, _ | unit, _, _ + 1, _ => rfl
  | int s w, _, _ + 1, _ => by cases s <;> cases w <;> rfl
  | float w, _, _ + 1, _ => by cases w <;> rfl
  | name _, h, _ + 1, _ => fromWithWrappersAux_name h _
  | option t, h, fuel + 1, hlt | vec t, h, fuel + 1, hlt | hashSet t, h, fuel + 1, hlt
  | bTreeSet t, h, fuel + 1, hlt => by
    have ih := fromWithWrappersAux_render (show t.Good from h) (show t.render.length < fuel by
      simp [render, angled] at hlt; omega)
    rw [fromWithWrappersAux, filter_render h]
    simp only [render, List.lookup_nil]
    repeat (rw [if_neg]; on_goal 2 => simp [angled]; done)
    rw [if_pos (by simp [angled]), angleInner_angled (by decide), nest, ih]
    rfl
  | slice t, h, fuel + 1, hlt => by
    have ih := fromWithWrappersAux_render h.1 (show t.render.length < fuel by
      simp [render] at hlt; omega)
    have hsemi : ';' ∉ '[' :: t.render ++ [']'] := by simp [semicolon_not_mem_render h.1 h.2]
    rw [fromWithWrappersAux, filter_render h]
    simp only [render, List.lookup_nil]
    repeat (rw [if_neg]; on_goal 2 => simp; done)
    rw [if_pos (by simp), find_of_not_mem hsemi, Option.getD_none, byteLen_append,
      show byteLen [']'] = 1 from rfl, Nat.add_sub_cancel, slice_bracket, nest, ih]
    rfl
  | array t len, h, fuel + 1, hlt => by
    have ih := fromWithWrappersAux_render h.1 (show t.render.length < fuel by
      simp [render] at hlt; omega)
    have hfind :
        find ('[' :: t.render ++ ';' :: len ++ [']']) ';' = some (byteLen ('[' :: t.render)) := by
      rw [List.append_assoc]
      exact find_append_of_not_mem (by simp [semicolon_not_mem_render h.1 h.2.1])
    rw [fromWithWrappersAux, filter_render h]
    simp only [render, List.lookup_nil]
    repeat (rw [if_neg]; on_goal 2 => simp; done)
    rw [if_pos (by simp), hfind, Option.getD_some, List.append_assoc, slice_bracket, nest, ih]
    rfl
  | hashMap k v, h, fuel + 1, hlt | bTreeMap k v, h, fuel + 1, hlt => by
    have hk := fromWithWrappersAux_render h.1 (show k.render.length < fuel by
      simp [render, angled] at hlt; omega)
    have hv := fromWithWrappersAux_render h.2.1 (show v.render.length < fuel by
      simp [render, angled] at hlt; omega)
    rw [fromWithWrappersAux, filter_render h]
    simp only [render, List.lookup_nil]
    repeat (rw [if_neg]; on_goal 2 => simp [angled]; done)
    rw [if_pos (by simp [angled]), angleInner_angled (by decide)]
    simp only [List.getElem?_cons_zero, List.getElem?_cons_succ, hk, hv,
      splitOn_comma (comma_not_mem_render h.1 h.2.2.1) (comma_not_mem_render h.2.1 h.2.2.2)]
    rfl

end TypeExpr

namespace RustType

/-- Every good expression, printed with any whitespace between its characters, is read as its
tree without panicking. -/
theorem fromWithWrappers_render (t : TypeExpr) (h : t.Good) (s : List Char)
    (hs : s.filter (fun c => !isWhitespace c) = t.render) :
    fromWithWrappers s [] = some (.ok t.tree) := by
  rw [fromWithWrappers, ← fromWithWrappersAux_filter, hs]
  exact TypeExpr.fromWithWrappersAux_render h
    (hs ▸ Nat.lt_succ_of_le (List.length_filter_le _ _))

theorem fromWithWrappers_render_hashMap :
    (TypeExpr.hashMap .string (.vec (.option (.int false .w32)))).Good ∧
      "HashMap<String, Vec<Option<u32>>>".toList.filter (fun c => !isWhitespace c) =
        (TypeExpr.hashMap .string (.vec (.option (.int false .w32)))).render ∧
      fromWithWrappers "HashMap<String, Vec<Option<u32>>>".toList [] =
        some (.ok (.fromBuiltin (.map (.fromBuiltin .string) (.fromBuiltin
          (.array (.fromBuiltin (.option (.fromPrimitive (.int false (some 32)))))))))) :=
  ⟨⟨trivial, trivial, rfl, rfl⟩, by decide,
    fromWithWrappers_render (.hashMap .string (.vec (.option (.int false .w32))))
      ⟨trivial, trivial, rfl, rfl⟩ _ (by decide)⟩

end RustType

end TsClient.Ffigen
