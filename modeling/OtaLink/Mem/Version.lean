import OtaLink.DeviceInfo

/-!
# The version string in memory (`parse_app_version`)

`parse_app_version` walks over the version of the application with a cursor. Here the
string is memory that ends with its NUL: a read behind it is a fault, and so is a sum that
32 bits do not hold.

## Main definitions

* `Mem.parseVersionComponent`, `Mem.parseAppVersion` — the functions, with the cursor.
* `Component`, `IsVersion` — the strings that are versions.
* `Mem.version_grammar` — the parser accepts these and no others, and reads nothing
  behind the NUL.
-/

namespace OtaLink

/-! ## The grammar -/

/-- The number that decimal digits write. -/
def decimal (digits : List UInt8) : ℕ :=
  digits.foldl (fun parsed c => parsed * 10 + (c.toNat - 0x30)) 0

/-- A run of digits that writes an octet. -/
structure Component (digits : List UInt8) (value : UInt8) : Prop where
  ne_nil : digits ≠ []
  isDigit : ∀ c ∈ digits, isDigit c = true
  value : decimal digits = value.toNat

/-- No digit follows. -/
def Ends (rest : List UInt8) : Prop := ∀ c ∈ rest.head?, isDigit c = false

/-- The optional letter before the version. -/
def IsMark (mark : List UInt8) : Prop := mark = [] ∨ mark = [0x76] ∨ mark = [0x56]

/-- The text is a version with these numbers, followed by anything. -/
def IsVersion (text : List UInt8) (major minor patch : UInt8) : Prop :=
  ∃ mark xs ys zs rest, IsMark mark ∧ Component xs major ∧ Component ys minor ∧
    Component zs patch ∧ Ends rest ∧
    text = mark ++ (xs ++ 0x2E :: (ys ++ 0x2E :: (zs ++ rest)))

/-- The text ends where a dot is to follow. -/
def EndsBeforeDot (text : List UInt8) : Prop :=
  ∃ mark xs x, IsMark mark ∧ Component xs x ∧
    (text = mark ++ xs ∨ ∃ ys y, Component ys y ∧ text = mark ++ (xs ++ 0x2E :: ys))

namespace Mem

/-! ## The cursor -/

/-- Why a scan stops. -/
inductive ScanFault
  /-- A read behind the NUL. -/
  | outside
  /-- A value that does not fit its variable. -/
  | overflow
  deriving DecidableEq, Repr

abbrev Scan (α : Type) := Except ScanFault α

/-- `*cursor`. -/
def charAt (memory : List UInt8) (cursor : ℕ) : Scan UInt8 :=
  match memory[cursor]? with
  | none => .error .outside
  | some c => .ok c

/-- `(parsed * 10U) + (uint32_t)(*value - '0')`. -/
def addDigit (parsed : UInt32) (c : UInt8) : Scan UInt32 :=
  if parsed.toNat * 10 + (c.toNat - 0x30) < 2 ^ 32 then .ok (parsed * 10 + (c - 0x30).toUInt32)
  else .error .overflow

/-- The loop over the digits. It is given the memory from `value` on; there is no result
where a component is too large. -/
def digitLoop (parsed : UInt32) (value : ℕ) : List UInt8 → Scan (Option (UInt32 × ℕ))
  | [] => .error .outside
  | c :: rest =>
    if isDigit c then do
      let parsed ← addDigit parsed c
      if 255 < parsed then return none
      digitLoop parsed (value + 1) rest
    else .ok (some (parsed, value))

/-- The component, `none` for false, and the cursor. -/
def parseVersionComponent (memory : List UInt8) (cursor : ℕ) : Scan (Option UInt8 × ℕ) := do
  if !isDigit (← charAt memory cursor) then return (none, cursor)
  match ← digitLoop 0 cursor (memory.drop cursor) with
  | none => return (none, cursor)
  | some (parsed, value) => return (some parsed.toUInt8, value)

/-- `*cursor++ != '.'`, and the cursor. -/
def passDot (memory : List UInt8) (cursor : ℕ) : Scan (Bool × ℕ) := do
  let c ← charAt memory cursor
  return (c != 0x2E, cursor + 1)

/-- Major, minor and patch number, and the cursor at the end. -/
def parseAppVersion (memory : List UInt8) : Scan ((UInt8 × UInt8 × UInt8) × ℕ) := do
  let first ← charAt memory 0
  let version := if first = 0x76 ∨ first = 0x56 then 1 else 0
  let (parsedMajor, cursor) ← parseVersionComponent memory version
  let some major := parsedMajor | return ((0, 0, 0), cursor)
  let (other, cursor) ← passDot memory cursor
  if other then return ((0, 0, 0), cursor)
  let (parsedMinor, cursor) ← parseVersionComponent memory cursor
  let some minor := parsedMinor | return ((0, 0, 0), cursor)
  let (other, cursor) ← passDot memory cursor
  if other then return ((0, 0, 0), cursor)
  let (parsedPatch, cursor) ← parseVersionComponent memory cursor
  let some patch := parsedPatch | return ((0, 0, 0), cursor)
  return ((major, minor, patch), cursor)

end Mem

/-! ## The scan over the text -/

/-- The text behind the mark. -/
def skipMark : List UInt8 → List UInt8
  | c :: rest => if c = 0x76 ∨ c = 0x56 then rest else c :: rest
  | [] => []

/-- The scan of `parse_app_version`, on the text that is left. -/
def readVersion (text : List UInt8) : Option (UInt8 × UInt8 × UInt8) := do
  let (major, cursor) ← parseVersionComponent (skipMark text)
  let (minor, cursor) ← parseVersionComponent (← skipDot cursor)
  let (patch, _) ← parseVersionComponent (← skipDot cursor)
  return (major, minor, patch)

theorem parseAppVersion_eq (s : CString) :
    parseAppVersion (some s) = (readVersion (utf8 s.text)).getD (0, 0, 0) := by
  unfold parseAppVersion readVersion skipMark
  rfl

/-- The value only grows while digits are read. -/
theorem le_foldl_digits (digits : List UInt8) (n : ℕ) :
    n ≤ digits.foldl (fun parsed c => parsed * 10 + (c.toNat - 0x30)) n := by
  induction digits generalizing n with
  | nil => exact le_rfl
  | cons c digits ih => exact le_trans (by omega) (ih (n * 10 + (c.toNat - 0x30)))

/-- The loop reads the digits there are, unless their value passes 255. -/
theorem parseDigits_append {digits rest : List UInt8} (hdigits : ∀ c ∈ digits, isDigit c = true)
    (hrest : Ends rest) : ∀ {n : ℕ}, n ≤ 255 →
    parseDigits n (digits ++ rest) =
      if digits.foldl (fun parsed c => parsed * 10 + (c.toNat - 0x30)) n ≤ 255 then
        some (UInt8.ofNat (digits.foldl (fun parsed c => parsed * 10 + (c.toNat - 0x30)) n), rest)
      else none := by
  induction digits with
  | nil =>
    intro n hn
    rw [List.nil_append, List.foldl_nil, if_pos hn]
    rcases rest with _ | ⟨c, rest⟩
    · rfl
    · rw [parseDigits, hrest c rfl, if_neg Bool.false_ne_true]
  | cons c digits ih =>
    intro n _
    obtain ⟨hc, hdigits⟩ := List.forall_mem_cons.mp hdigits
    rw [List.cons_append, parseDigits, if_pos hc, List.foldl_cons]
    by_cases hlarge : 255 < n * 10 + (c.toNat - 0x30)
    · have hgrow := le_foldl_digits digits (n * 10 + (c.toNat - 0x30))
      rw [if_pos hlarge, if_neg (by omega)]
    · rw [if_neg hlarge]
      exact ih hdigits (by omega)

/-- A component is read where a run of digits writes an octet, and it is read whole. -/
theorem parseVersionComponent_eq_some {s rest : List UInt8} {n : UInt8} :
    parseVersionComponent s = some (n, rest) ↔
      ∃ digits, s = digits ++ rest ∧ Component digits n ∧ Ends rest := by
  constructor
  · intro h
    have hdigits : ∀ c ∈ s.takeWhile isDigit, isDigit c = true := fun c =>
      List.all_eq_true.mp List.all_takeWhile c
    have hends : Ends (s.dropWhile isDigit) := by
      intro c hc
      have hnot := List.head?_dropWhile_not isDigit s
      rw [Option.mem_def] at hc
      rwa [hc] at hnot
    rcases s with _ | ⟨c, tail⟩
    · cases h
    by_cases hc : isDigit c = true
    swap
    · rw [parseVersionComponent, if_neg hc] at h
      cases h
    rw [parseVersionComponent, if_pos hc] at h
    generalize htake : (c :: tail).takeWhile isDigit = digits at hdigits
    generalize hdrop : (c :: tail).dropWhile isDigit = left at hends
    have hsplit : c :: tail = digits ++ left := by
      rw [← htake, ← hdrop, List.takeWhile_append_dropWhile]
    rw [hsplit, parseDigits_append hdigits hends (Nat.zero_le _)] at h
    split at h
    · rename_i hle
      cases h
      refine ⟨digits, hsplit, ⟨?_, hdigits, ?_⟩, hends⟩
      · rw [← htake, List.takeWhile_cons_of_pos hc]
        exact List.cons_ne_nil _ _
      · rw [decimal, UInt8.toNat_ofNat', Nat.mod_eq_of_lt (by omega)]
    · cases h
  · rintro ⟨digits, rfl, hcomponent, hends⟩
    obtain ⟨c, tail, rfl⟩ := List.exists_cons_of_ne_nil hcomponent.ne_nil
    have hvalue := hcomponent.value
    have hlt := n.toNat_lt
    rw [decimal] at hvalue
    rw [List.cons_append, parseVersionComponent, if_pos (hcomponent.isDigit c (by simp)),
      ← List.cons_append, parseDigits_append hcomponent.isDigit hends (by omega), hvalue,
      if_pos (by omega), UInt8.ofNat_toNat]

theorem skipDot_eq_some {s rest : List UInt8} : skipDot s = some rest ↔ s = 0x2E :: rest := by
  rw [skipDot.eq_def]
  split
  · simp
  · rename_i h
    simp only [reduceCtorEq, false_iff]
    exact fun hs => h rest hs

theorem ends_dot (rest : List UInt8) : Ends (0x2E :: rest) := by
  intro c hc
  cases hc
  rfl

/-- A mark before a component is what is skipped. -/
theorem skipMark_eq {text s digits : List UInt8} {n : UInt8} (hcomponent : Component digits n)
    (hs : digits <+: s) : skipMark text = s ↔ ∃ mark, IsMark mark ∧ text = mark ++ s := by
  obtain ⟨c, tail, rfl⟩ := List.exists_cons_of_ne_nil hcomponent.ne_nil
  obtain ⟨left, rfl⟩ := hs
  have hc : isDigit c = true := hcomponent.isDigit c (by simp)
  rw [skipMark.eq_def]
  constructor
  · rcases text with _ | ⟨x, text⟩
    · intro h
      cases h
    · simp only
      split
      · rename_i hx
        rintro rfl
        exact ⟨[x], .inr (hx.imp (fun h => by rw [h]) fun h => by rw [h]), rfl⟩
      · intro h
        exact ⟨[], .inl rfl, h⟩
  · rintro ⟨mark, rfl | rfl | rfl, rfl⟩
    · have hne : ¬ (c = 0x76 ∨ c = 0x56) := by
        rintro (rfl | rfl) <;> exact absurd hc (by decide)
      simp only [List.nil_append, List.cons_append, if_neg hne]
    · rfl
    · rfl

/-- **The scan reads the versions.** -/
theorem readVersion_eq_some {text : List UInt8} {a b c : UInt8} :
    readVersion text = some (a, b, c) ↔ IsVersion text a b c := by
  have hread : readVersion text = some (a, b, c) ↔ ∃ r₁ r₂ r₃,
      parseVersionComponent (skipMark text) = some (a, 0x2E :: r₁) ∧
        parseVersionComponent r₁ = some (b, 0x2E :: r₂) ∧
          parseVersionComponent r₂ = some (c, r₃) := by
    simp [readVersion, Option.bind_eq_some_iff, skipDot_eq_some]
  rw [hread]
  constructor
  · rintro ⟨r₁, r₂, r₃, h₁, h₂, h₃⟩
    obtain ⟨xs, hxs, hx, -⟩ := parseVersionComponent_eq_some.mp h₁
    obtain ⟨ys, rfl, hy, -⟩ := parseVersionComponent_eq_some.mp h₂
    obtain ⟨zs, rfl, hz, hends⟩ := parseVersionComponent_eq_some.mp h₃
    obtain ⟨mark, hmark, htext⟩ := (skipMark_eq hx ⟨_, rfl⟩).mp hxs
    exact ⟨mark, xs, ys, zs, r₃, hmark, hx, hy, hz, hends, htext⟩
  · rintro ⟨mark, xs, ys, zs, rest, hmark, hx, hy, hz, hends, htext⟩
    exact ⟨_, _, rest,
      parseVersionComponent_eq_some.mpr
        ⟨xs, (skipMark_eq hx ⟨_, rfl⟩).mpr ⟨mark, hmark, htext⟩, hx, ends_dot _⟩,
      parseVersionComponent_eq_some.mpr ⟨ys, rfl, hy, ends_dot _⟩,
      parseVersionComponent_eq_some.mpr ⟨zs, rfl, hz, hends⟩⟩

namespace Mem

/-! ## The scan in memory

What is left of the text is a suffix of it, and the cursor stands where it begins. -/

section Cursor
variable {text s : List UInt8}

theorem memory_suffix (h : s <:+ text) :
    (text ++ [0]).drop (text.length - s.length) = s ++ [0] := by
  rw [List.drop_append_of_le_length (by omega), ← List.suffix_iff_eq_drop.mp h]

theorem charAt_suffix (h : s <:+ text) :
    charAt (text ++ [0]) (text.length - s.length) = .ok (s.headD 0) := by
  have hget : ((text ++ [0]).drop (text.length - s.length))[0]? =
      (text ++ [0])[text.length - s.length + 0]? := List.getElem?_drop
  rw [memory_suffix h, Nat.add_zero] at hget
  rw [charAt, ← hget]
  cases s <;> rfl

/-- The sum stays far below 32 bits. -/
theorem addDigit_spec {parsed : UInt32} {c : UInt8} (hc : isDigit c = true)
    (hparsed : parsed.toNat ≤ 255) :
    ∃ sum, addDigit parsed c = .ok sum ∧ sum.toNat = parsed.toNat * 10 + (c.toNat - 0x30) := by
  have hlt := c.toNat_lt
  obtain ⟨hlow, -⟩ : 0x30 ≤ c ∧ c ≤ 0x39 := by simpa [isDigit] using hc
  rw [UInt8.le_iff_toNat_le] at hlow
  have hsub : (c - 0x30).toNat = c.toNat - 0x30 := UInt8.toNat_sub_of_le _ _ hlow
  refine ⟨_, if_pos (by omega), ?_⟩
  rw [UInt32.toNat_add, UInt32.toNat_mul, UInt8.toNat_toUInt32, hsub]
  simp only [UInt32.reduceToNat]
  omega

/-- Where no digit stands the loop ends with the value it has. -/
theorem digitLoop_stop {parsed : UInt32} (hparsed : parsed.toNat ≤ 255) :
    (UInt8.ofNat parsed.toNat).toUInt32 = parsed := by
  rw [← UInt32.toNat_inj, UInt8.toNat_toUInt32, UInt8.toNat_ofNat', Nat.mod_eq_of_lt (by omega)]

theorem digitLoop_suffix {parsed : UInt32} (hparsed : parsed.toNat ≤ 255) (h : s <:+ text) :
    digitLoop parsed (text.length - s.length) (s ++ [0]) =
      .ok ((parseDigits parsed.toNat s).map fun r => (r.1.toUInt32, text.length - r.2.length)) := by
  induction s generalizing parsed with
  | nil =>
    rw [parseDigits, Option.map_some, digitLoop_stop hparsed]
    rfl
  | cons c s ih =>
    have hs : s <:+ text := (List.suffix_cons c s).trans h
    have hlen := h.length_le
    rw [List.length_cons] at hlen
    rw [List.cons_append, digitLoop, parseDigits]
    by_cases hc : isDigit c = true
    swap
    · rw [if_neg hc, if_neg hc, Option.map_some, digitLoop_stop hparsed]
    obtain ⟨sum, hsum, hvalue⟩ := addDigit_spec hc hparsed
    have hlarge : 255 < sum ↔ 255 < parsed.toNat * 10 + (c.toNat - 0x30) := by
      rw [← hvalue, UInt32.lt_iff_toNat_lt]
      rfl
    rw [if_pos hc, if_pos hc, hsum]
    change (if 255 < sum then pure none else digitLoop sum (text.length - (c :: s).length + 1)
      (s ++ [0])) = _
    by_cases hover : 255 < sum
    · rw [if_pos hover, if_pos (hlarge.mp hover)]
      rfl
    · have hle : ¬ 255 < parsed.toNat * 10 + (c.toNat - 0x30) := fun h => hover (hlarge.mpr h)
      have hnext : text.length - (c :: s).length + 1 = text.length - s.length := by
        rw [List.length_cons]
        omega
      rw [if_neg hover, if_neg hle, hnext, ih (by omega) hs, hvalue]

/-- What a component leaves is a suffix. -/
theorem suffix_of_parseVersionComponent {rest : List UInt8} {n : UInt8}
    (h : OtaLink.parseVersionComponent s = some (n, rest)) : rest <:+ s := by
  obtain ⟨digits, rfl, -⟩ := parseVersionComponent_eq_some.mp h
  exact List.suffix_append ..

theorem parseVersionComponent_suffix (h : s <:+ text) :
    parseVersionComponent (text ++ [0]) (text.length - s.length) =
      .ok (match OtaLink.parseVersionComponent s with
        | none => (none, text.length - s.length)
        | some (n, rest) => (some n, text.length - rest.length)) := by
  rcases s with _ | ⟨c, s⟩
  · rw [parseVersionComponent, charAt_suffix h]
    rfl
  have hchar : charAt (text ++ [0]) (text.length - (c :: s).length) = .ok c := charAt_suffix h
  by_cases hc : isDigit c = true
  swap
  · rw [Bool.not_eq_true] at hc
    simp only [parseVersionComponent, OtaLink.parseVersionComponent, hchar, hc, bind, Except.bind,
      Bool.not_false, Bool.false_eq_true, if_true, if_false, pure, Except.pure]
  have hloop := @digitLoop_suffix text _ 0 (by decide) h
  rw [UInt32.toNat_zero] at hloop
  simp only [parseVersionComponent, OtaLink.parseVersionComponent, hchar, hc, memory_suffix h,
    hloop, bind, Except.bind, Bool.not_true, Bool.false_eq_true, if_false, if_true]
  rcases parseDigits 0 (c :: s) with _ | ⟨n, rest⟩
  · rfl
  · simp [pure, Except.pure]

theorem parseVersionComponent_none (h : s <:+ text) (hs : OtaLink.parseVersionComponent s = none) :
    parseVersionComponent (text ++ [0]) (text.length - s.length) =
      .ok (none, text.length - s.length) := by
  rw [parseVersionComponent_suffix h, hs]

theorem parseVersionComponent_some {rest : List UInt8} {n : UInt8} (h : s <:+ text)
    (hs : OtaLink.parseVersionComponent s = some (n, rest)) :
    parseVersionComponent (text ++ [0]) (text.length - s.length) =
      .ok (some n, text.length - rest.length) := by
  rw [parseVersionComponent_suffix h, hs]

theorem passDot_dot (h : (0x2E :: s) <:+ text) :
    passDot (text ++ [0]) (text.length - (0x2E :: s).length) =
      .ok (false, text.length - s.length) := by
  have hlen := h.length_le
  rw [List.length_cons] at hlen
  rw [passDot, charAt_suffix h, List.length_cons,
    ← show text.length - (s.length + 1) + 1 = text.length - s.length by omega]
  rfl

/-- Where no dot stands the cursor ends behind what is there instead. -/
theorem passDot_other (h : s <:+ text) (hdot : skipDot s = none) :
    passDot (text ++ [0]) (text.length - s.length) = .ok (true, text.length - s.length + 1) := by
  have hne : (s.headD 0 != 0x2E) = true := by
    rw [bne_iff_ne]
    rcases s with _ | ⟨c, s⟩
    · decide
    · rintro rfl
      cases hdot
  rw [passDot, charAt_suffix h, ← hne]
  rfl

/-- That cursor is behind the NUL only where the text has ended. -/
theorem position_other (h : s <:+ text) (hends : s = [] → EndsBeforeDot text) :
    text.length - s.length + 1 ≤ text.length ∨
      text.length - s.length + 1 = text.length + 1 ∧ EndsBeforeDot text := by
  have hlen := h.length_le
  rcases s with _ | ⟨c, s⟩
  · exact .inr ⟨rfl, hends rfl⟩
  · rw [List.length_cons] at hlen ⊢
    exact .inl (by omega)

theorem skipMark_suffix (text : List UInt8) : skipMark text <:+ text := by
  rw [skipMark.eq_def]
  split
  · split
    · exact List.suffix_cons ..
    · exact List.suffix_rfl
  · exact List.suffix_rfl

theorem position_skipMark (text : List UInt8) :
    (if text.headD 0 = 0x76 ∨ text.headD 0 = 0x56 then 1 else 0) =
      text.length - (skipMark text).length := by
  rcases text with _ | ⟨c, text⟩
  · rfl
  · rw [List.headD_cons, skipMark]
    split <;> simp

/-- What the scan has read when a component ends the text. -/
theorem exists_mark {rest : List UInt8} {n : UInt8}
    (h : OtaLink.parseVersionComponent (skipMark text) = some (n, rest)) :
    ∃ mark xs, IsMark mark ∧ Component xs n ∧ text = mark ++ (xs ++ rest) := by
  obtain ⟨xs, hxs, hx, -⟩ := parseVersionComponent_eq_some.mp h
  obtain ⟨mark, hmark, htext⟩ := (skipMark_eq hx ⟨_, rfl⟩).mp hxs
  exact ⟨mark, xs, hmark, hx, htext⟩

/-- The scan in memory is the scan of the text. -/
theorem parseAppVersion_text (text : List UInt8) : ∃ cursor,
    parseAppVersion (text ++ [0]) = .ok ((readVersion text).getD (0, 0, 0), cursor) ∧
      (cursor ≤ text.length ∨ cursor = text.length + 1 ∧ EndsBeforeDot text) := by
  have hfirst : charAt (text ++ [0]) 0 = .ok (text.headD 0) := by
    rw [← Nat.sub_self text.length]
    exact charAt_suffix List.suffix_rfl
  have hmark := skipMark_suffix text
  simp only [parseAppVersion, hfirst, bind, Except.bind, position_skipMark, readVersion]
  rcases h₁ : OtaLink.parseVersionComponent (skipMark text) with _ | ⟨major, r₁⟩
  · rw [parseVersionComponent_none hmark h₁]
    exact ⟨_, rfl, .inl (Nat.sub_le ..)⟩
  have hs₁ := (suffix_of_parseVersionComponent h₁).trans hmark
  obtain ⟨mark, xs, hm, hx, htext⟩ := exists_mark h₁
  rw [parseVersionComponent_some hmark h₁]
  simp only [Option.bind]
  rcases hdot₁ : skipDot r₁ with _ | r₁'
  · rw [passDot_other hs₁ hdot₁]
    refine ⟨_, rfl, position_other hs₁ ?_⟩
    rintro rfl
    exact ⟨mark, xs, major, hm, hx, .inl (by simpa using htext)⟩
  obtain rfl := skipDot_eq_some.mp hdot₁
  have hs₁' := (List.suffix_cons _ r₁').trans hs₁
  rw [passDot_dot hs₁]
  simp only [Bool.false_eq_true, if_false]
  rcases h₂ : OtaLink.parseVersionComponent r₁' with _ | ⟨minor, r₂⟩
  · rw [parseVersionComponent_none hs₁' h₂]
    exact ⟨_, rfl, .inl (Nat.sub_le ..)⟩
  have hs₂ := (suffix_of_parseVersionComponent h₂).trans hs₁'
  obtain ⟨ys, rfl, hy, -⟩ := parseVersionComponent_eq_some.mp h₂
  rw [parseVersionComponent_some hs₁' h₂]
  simp only
  rcases hdot₂ : skipDot r₂ with _ | r₂'
  · rw [passDot_other hs₂ hdot₂]
    refine ⟨_, rfl, position_other hs₂ ?_⟩
    rintro rfl
    exact ⟨mark, xs, major, hm, hx, .inr ⟨ys, minor, hy, by simpa using htext⟩⟩
  obtain rfl := skipDot_eq_some.mp hdot₂
  have hs₂' := (List.suffix_cons _ r₂').trans hs₂
  rw [passDot_dot hs₂]
  simp only [Bool.false_eq_true, if_false]
  rcases h₃ : OtaLink.parseVersionComponent r₂' with _ | ⟨patch, r₃⟩
  · rw [parseVersionComponent_none hs₂' h₃]
    exact ⟨_, rfl, .inl (Nat.sub_le ..)⟩
  · rw [parseVersionComponent_some hs₂' h₃]
    exact ⟨_, rfl, .inl (Nat.sub_le ..)⟩

end Cursor

/-- The version that `device_info_build_payload` writes is the one read from memory. -/
theorem parseAppVersion_memory (s : CString) : ∃ cursor,
    parseAppVersion s.memory = .ok (OtaLink.parseAppVersion (some s), cursor) := by
  obtain ⟨cursor, h, -⟩ := parseAppVersion_text (utf8 s.text)
  rw [parseAppVersion_eq]
  exact ⟨cursor, h⟩

/-- **The version grammar.** On every string the parser makes no read behind the NUL and
overflows nowhere. A version gives its three numbers and any other string three zeros. The
cursor passes the NUL only where the string ends before a dot, and ends right behind it. -/
theorem version_grammar (text : List UInt8) : ∃ version cursor,
    parseAppVersion (text ++ [0]) = .ok (version, cursor) ∧
    (∀ a b c, IsVersion text a b c → version = (a, b, c)) ∧
    ((∀ a b c, ¬ IsVersion text a b c) → version = (0, 0, 0)) ∧
    (cursor ≤ text.length ∨ cursor = text.length + 1 ∧ EndsBeforeDot text) := by
  obtain ⟨cursor, hparse, hcursor⟩ := parseAppVersion_text text
  refine ⟨_, cursor, hparse, ?_, ?_, hcursor⟩
  · intro a b c h
    rw [readVersion_eq_some.mpr h, Option.getD_some]
  · intro h
    have hnone : readVersion text = none := Option.eq_none_iff_forall_not_mem.mpr fun v hv =>
      h v.1 v.2.1 v.2.2 (readVersion_eq_some.mp hv)
    rw [hnone, Option.getD_none]

/-- Behind `1` the parser looks for a dot, finds the NUL and passes it. -/
theorem cursor_passes_nul : ¬ ∀ text, ∃ version cursor,
    parseAppVersion (text ++ [0]) = .ok (version, cursor) ∧ cursor ≤ text.length := by
  intro h
  obtain ⟨version, cursor, hparse, hcursor⟩ := h [0x31]
  have hrun : parseAppVersion ([0x31] ++ [0]) = .ok ((0, 0, 0), 2) := by decide
  rw [hrun] at hparse
  cases hparse
  exact absurd hcursor (by decide)

end Mem
end OtaLink
