import Mathlib.Data.List.TakeWhile
import NamespacePlan.Json.Reader

/-! The faults of a JSON text. A number is too long only where a run of so many digits stands in the
text, and it nests too deep only where more brackets are opened in it than may be; every other fault is
one of the notation. -/
namespace NamespacePlan.Json

open Text

/-- A run of digits stands in the text that is longer than a whole number may be. -/
def HasRun (cs : List Char) (n : Nat) : Prop :=
  ∃ ds, ds <:+: cs ∧ (∀ d ∈ ds, isDigit d = true) ∧ ds.length = n ∧ Value.digitLimit < n

def isOpening (c : Char) : Bool := c == '[' || c == '\x7b'

/-- More brackets are opened in the text than may nest. -/
def IsDeep (nesting : Option Nat) (cs : List Char) : Prop :=
  ∃ n, nesting = some n ∧ n < cs.countP isOpening

/-- What a text has to hold for a fault. -/
def Accounts (nesting : Option Nat) (cs : List Char) : Fault → Prop
  | .tooLong n => HasRun cs n
  | .tooDeep _ => IsDeep nesting cs
  | _ => True

/-- A step on a text leaves an end of it, and fails only over what stands in it. -/
def Within {α : Type} (nesting : Option Nat) (cs : List Char) : Step α → Prop
  | .ok (_, rest) => rest <:+ cs
  | .error e => Accounts nesting cs e.fault

theorem HasRun.mono {cs ds : List Char} {n : Nat} (run : HasRun cs n) (ending : cs <:+ ds) :
    HasRun ds n := by
  obtain ⟨digits, inside, all, length, long⟩ := run
  exact ⟨digits, inside.trans ending.isInfix, all, length, long⟩

theorem IsDeep.mono {nesting : Option Nat} {cs ds : List Char} (deep : IsDeep nesting cs)
    (ending : cs <:+ ds) : IsDeep nesting ds := by
  obtain ⟨n, limit, more⟩ := deep
  exact ⟨n, limit, Nat.lt_of_lt_of_le more ending.sublist.countP_le⟩

section Steps

variable {α β : Type} {nesting : Option Nat} {cs ds : List Char}

theorem Accounts.mono {f : Fault} (accounts : Accounts nesting cs f) (ending : cs <:+ ds) :
    Accounts nesting ds f := by
  cases f with
  | tooLong n => exact HasRun.mono accounts ending
  | tooDeep object => exact IsDeep.mono accounts ending
  | _ => trivial

theorem Within.mono {s : Step α} (within : Within nesting cs s) (ending : cs <:+ ds) :
    Within nesting ds s := by
  cases s with
  | ok r => exact List.IsSuffix.trans within ending
  | error e => exact Accounts.mono within ending

theorem Within.ok {a : α} {rest : List Char} (ending : rest <:+ cs) :
    Within nesting cs (.ok (a, rest) : Step α) := ending

theorem Within.fault {e : Error} (accounts : Accounts nesting cs e.fault) :
    Within nesting cs (.error e : Step α) := accounts

theorem Within.failAt {rest : List Char} {fault : Fault} (accounts : Accounts nesting cs fault) :
    Within nesting cs (Json.failAt fault rest : Step α) := accounts

theorem Within.map {s : Step α} (within : Within nesting cs s) (f : α → β) :
    Within nesting cs (s.map fun r => (f r.1, r.2)) := by
  cases s with
  | ok r => exact within
  | error e => exact within

end Steps

theorem skipBlanks_suffix (cs : List Char) : skipBlanks cs <:+ cs := List.dropWhile_suffix _

variable {nesting : Option Nat}

/-! Scalars. -/

theorem Within.push {rest : List Char} {s : Step (List (Option Char))} (within : Within nesting rest s)
    (front : List Char) (c : Option Char) : Within nesting (front ++ rest) (stringBody.push c s) :=
  (within.map (c :: ·)).mono (List.suffix_append front rest)

theorem within_stringBody (start : Nat) (cs : List Char) : Within nesting cs (stringBody start cs) := by
  fun_induction stringBody start cs with
  | case1 => exact .fault trivial
  | case2 rest => exact .ok (List.suffix_cons _ _)
  | case3 => exact .fault trivial
  | case4 => exact .failAt trivial
  | case5 => exact .failAt trivial
  | case6 => exact .failAt trivial
  | case7 a b c d n _ e f g h after _ m _ _ _ ih =>
    exact ih.push ['\\', 'u', a, b, c, d, '\\', 'u', e, f, g, h] _
  | case8 a b c d n _ e f g h after _ m _ _ _ ih => exact ih.push ['\\', 'u', a, b, c, d] _
  | case9 a b c d n _ e f g h after _ _ ih => exact ih.push ['\\', 'u', a, b, c, d] _
  | case10 a b c d n _ tail _ _ ih => exact ih.push ['\\', 'u', a, b, c, d] _
  | case11 => exact .failAt trivial
  | case12 c rest _ e _ ih => exact ih.push ['\\', c] _
  | case13 => exact .failAt trivial
  | case14 => exact .failAt trivial
  | case15 c rest _ _ _ _ _ ih => exact ih.push [c] _

theorem within_stringValue (rest : List Char) : Within nesting rest (stringValue rest) :=
  (within_stringBody _ rest).map textOf

theorem fraction_suffix (cs : List Char) : (fraction cs).2 <:+ cs := by
  unfold fraction
  split
  · split
    · exact (List.dropWhile_suffix _).trans ((List.suffix_cons _ _).trans (List.suffix_cons _ _))
    · exact List.suffix_refl _
  · exact List.suffix_refl _

theorem exponent_suffix (cs : List Char) : (exponent cs).2 <:+ cs := by
  unfold exponent
  split
  · rename_i e rest
    split
    · dsimp only
      have behind : ∀ ds : List Char, ds <:+ rest → ds.dropWhile isDigit <:+ e :: rest :=
        fun ds ending => (List.dropWhile_suffix _).trans (ending.trans (List.suffix_cons _ _))
      split <;> split
      · exact List.suffix_refl _
      · exact behind _ (List.suffix_cons _ _)
      · exact List.suffix_refl _
      · exact behind _ (List.suffix_cons _ _)
      · exact List.suffix_refl _
      · exact behind _ (List.suffix_refl _)
    · exact List.suffix_refl _
  · exact List.suffix_refl _

/-- The digits that a number begins with. -/
theorem whole_suffix {cs rest ds : List Char}
    (whole : (match cs with
      | '0' :: rest => some (['0'], rest)
      | c :: rest =>
        if isDigit c then some (c :: rest.takeWhile isDigit, rest.dropWhile isDigit) else none
      | [] => none) = some (ds, rest)) :
    cs = ds ++ rest ∧ ∀ d ∈ ds, isDigit d = true := by
  split at whole
  · cases whole
    refine ⟨rfl, fun d member => ?_⟩
    rw [List.mem_singleton.1 member]
    rfl
  · split at whole
    · rename_i c tail _ digit
      cases whole
      refine ⟨by rw [List.cons_append, List.takeWhile_append_dropWhile], fun d member => ?_⟩
      rcases List.mem_cons.1 member with rfl | later
      · exact digit
      · exact List.mem_takeWhile_imp later
    · cases whole
  · cases whole

/-- Only the digits of a whole number can be too many. -/
theorem within_number (negative : Bool) {start cs : List Char} (ending : cs <:+ start) :
    Within nesting start (number negative start cs) := by
  unfold number
  dsimp only
  split
  · exact .failAt trivial
  · rename_i ds rest whole
    obtain ⟨rfl, digits⟩ := whole_suffix whole
    have behind : (exponent (fraction rest).2).2 <:+ start :=
      (exponent_suffix _).trans ((fraction_suffix rest).trans
        ((List.suffix_append ds rest).trans ending))
    split
    · split
      · rename_i long
        exact ⟨ds, (List.prefix_append ds rest).isInfix.trans ending.isInfix, digits, rfl, long⟩
      · exact .ok behind
    · exact .ok behind

theorem within_scalar (cs : List Char) : Within nesting cs (scalar cs) := by
  unfold scalar
  split
  · exact .ok (List.drop_suffix _ _)
  · split
    · exact (within_stringValue _).mono (List.suffix_cons _ _)
    · exact within_number true (List.suffix_cons _ _)
    · exact within_number false (List.suffix_refl _)

/-! Values. -/

section Nested

variable {fuel : Nat} (values : ∀ cs, Within nesting cs (value nesting fuel cs))

include values

theorem within_items_succ (lists : ∀ cs, Within nesting cs (items nesting fuel cs)) (cs : List Char) :
    Within nesting cs (items nesting (fuel + 1) cs) := by
  have first := values cs
  unfold items
  split
  · rename_i e failed
    rwa [failed] at first
  · rename_i v rest read
    rw [read] at first
    have left : skipBlanks rest <:+ cs := (skipBlanks_suffix rest).trans first
    split
    · rename_i tail closed
      rw [closed] at left
      exact .ok ((List.suffix_cons _ _).trans left)
    · rename_i tail more
      rw [more] at left
      refine ((lists _).map (v :: ·)).mono ?_
      exact (skipBlanks_suffix tail).trans ((List.suffix_cons _ _).trans left)
    · exact .failAt trivial

theorem within_members_succ (maps : ∀ cs, Within nesting cs (members nesting fuel cs)) (cs : List Char) :
    Within nesting cs (members nesting (fuel + 1) cs) := by
  unfold members
  split
  · rename_i inner
    have key : Within nesting ('"' :: inner) (stringValue inner) :=
      (within_stringValue inner).mono (List.suffix_cons '"' inner)
    split
    · rename_i e failed
      rwa [failed] at key
    · rename_i k rest read
      rw [read] at key
      have left : skipBlanks rest <:+ '"' :: inner := (skipBlanks_suffix rest).trans key
      split
      · rename_i tail colon
        rw [colon] at left
        have behind : skipBlanks tail <:+ '"' :: inner :=
          (skipBlanks_suffix tail).trans ((List.suffix_cons _ _).trans left)
        have second := (values (skipBlanks tail)).mono behind
        split
        · rename_i e failed
          rwa [failed] at second
        · rename_i v last read'
          rw [read'] at second
          have left' : skipBlanks last <:+ '"' :: inner := (skipBlanks_suffix last).trans second
          split
          · rename_i tail' closed
            rw [closed] at left'
            exact .ok ((List.suffix_cons _ _).trans left')
          · rename_i tail' more
            rw [more] at left'
            refine ((maps _).map ((k, v) :: ·)).mono ?_
            exact (skipBlanks_suffix tail').trans ((List.suffix_cons _ _).trans left')
          · exact .failAt trivial
      · exact .failAt trivial
  · exact .failAt trivial

end Nested

theorem IsDeep.opened {n : Nat} {c : Char} {rest : List Char} (opening : isOpening c = true)
    (deep : IsDeep (some n) rest) : IsDeep (some (n + 1)) (c :: rest) := by
  obtain ⟨_, ⟨⟩, more⟩ := deep
  refine ⟨n + 1, rfl, ?_⟩
  rw [List.countP_cons_of_pos opening]
  exact Nat.succ_lt_succ more

theorem isDeep_zero {c : Char} (rest : List Char) (opening : isOpening c = true) :
    IsDeep (some 0) (c :: rest) := by
  refine ⟨0, rfl, ?_⟩
  rw [List.countP_cons_of_pos opening]
  exact Nat.succ_pos _

/-- Behind an opened bracket one level less may nest. -/
theorem Within.opened {α : Type} {n : Nat} {c : Char} {rest : List Char} {s : Step α}
    (opening : isOpening c = true) (within : Within (some n) rest s) :
    Within (some (n + 1)) (c :: rest) s := by
  have ending : rest <:+ c :: rest := List.suffix_cons c rest
  cases s with
  | ok r => exact List.IsSuffix.trans within ending
  | error e =>
    obtain ⟨fault, left⟩ := e
    cases fault with
    | tooLong n => exact HasRun.mono within ending
    | tooDeep object => exact IsDeep.opened opening within
    | _ => trivial

theorem within_enter {α : Type} {c : Char} {rest : List Char} {object : Bool}
    {body : Option Nat → Step α} (opening : isOpening c = true)
    (inside : ∀ inner, Within inner rest (body inner)) :
    Within nesting (c :: rest) (match enter object nesting (c :: rest) with
      | .error e => .error e
      | .ok inner => body inner) := by
  cases nesting with
  | none => exact (inside none).mono (List.suffix_cons c rest)
  | some n =>
    cases n with
    | zero => exact isDeep_zero rest opening
    | succ n => exact (inside (some n)).opened opening

theorem within_value_succ {fuel : Nat} (lists : ∀ inner cs, Within inner cs (items inner fuel cs))
    (maps : ∀ inner cs, Within inner cs (members inner fuel cs)) (nesting : Option Nat)
    (cs : List Char) : Within nesting cs (value nesting (fuel + 1) cs) := by
  rw [value.eq_def]
  split
  · exact .failAt trivial
  · rename_i before rest same
    cases same
    refine within_enter rfl fun inner => ?_
    have left := skipBlanks_suffix rest
    split
    · rename_i tail closed
      rw [closed] at left
      exact .ok ((List.suffix_cons _ _).trans left)
    · exact ((lists _ _).map Value.list).mono left
  · rename_i before rest same
    cases same
    refine within_enter rfl fun inner => ?_
    have left := skipBlanks_suffix rest
    split
    · rename_i tail closed
      rw [closed] at left
      exact .ok ((List.suffix_cons _ _).trans left)
    · exact ((maps _ _).map fun es => Value.map (Value.mapOf es)).mono left
  · exact within_scalar _

theorem within_value (fuel : Nat) (nesting : Option Nat) (cs : List Char) :
    Within nesting cs (value nesting fuel cs) := by
  have all : (∀ nesting cs, Within nesting cs (value nesting fuel cs)) ∧
      (∀ nesting cs, Within nesting cs (items nesting fuel cs)) ∧
      ∀ nesting cs, Within nesting cs (members nesting fuel cs) := by
    induction fuel with
    | zero =>
      refine ⟨fun nesting cs => ?_, fun nesting cs => ?_, fun nesting cs => ?_⟩
      · unfold value
        exact .failAt trivial
      · unfold items
        exact .failAt trivial
      · unfold members
        exact .failAt trivial
    | succ fuel ih =>
      obtain ⟨values, lists, maps⟩ := ih
      exact ⟨within_value_succ lists maps,
        fun nesting => within_items_succ (values nesting) (lists nesting),
        fun nesting => within_members_succ (values nesting) (maps nesting)⟩
  exact all.1 nesting cs

/-- Every fault of a text is accounted for by what stands in it. -/
theorem accounts_of_readWithin {cs : List Char} {e : Error}
    (failed : readWithin nesting cs = .error e) : Accounts nesting cs e.fault := by
  unfold readWithin at failed
  split at failed
  · cases failed
    trivial
  · have whole := (within_value (2 * cs.length + 2) nesting (skipBlanks cs)).mono
      (skipBlanks_suffix cs)
    split at failed
    · rename_i e' stopped
      rw [stopped] at whole
      cases failed
      exact whole
    · split at failed
      · cases failed
      · cases failed
        trivial

end NamespacePlan.Json
