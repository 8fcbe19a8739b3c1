import TypeLattice.Cast
import TypeLattice.Proofs.Terms

/-!
Casts and overlap on trees. Nothing is looked up and nothing was computed before: whether a type
admits null or a truthy value is read off its tree, and equal trees are compared like any others.
-/
namespace TypeLattice

theorem ArrayKey.admits_self (key : ArrayKey) : key.admits key = true := by
  cases key <;> rfl

namespace TypeTerm
variable {ν μ : Type}

/-- The rules of a cast between trees. Of two different classes, `below` tells whether the first is
below the second. -/
structure CastRules (ν : Type) where
  nullFlows : Bool
  scalarsFlow : Bool
  below : ν → ν → Bool

namespace CastRules

/-- The rules of a configuration, with all classes unrelated. -/
def ofConfig (config : Option CastOptions) : CastRules ν :=
  ⟨config.any (·.nullFlows), config.any (·.scalarsFlow), fun _ _ => false⟩

end CastRules

def allowsNull (a : TypeTerm ν) : Bool := a.shape.allowsNull

def allowsTruthy (a : TypeTerm ν) : Bool := a.kind.allowsTruthy

def isBasic (b : BasicKind) : TypeTerm ν → Bool
  | basic _ c => c == b
  | _ => false

/-- The answer of a mixed target to a source that is neither mixed nor null. -/
def takesAsMixed? (target source : TypeTerm ν) : Option Bool :=
  match target with
  | basic _ .mixed | basic _ .nonNullMixed => some true
  | basic _ .nonEmptyMixed | basic _ .nonNullNonEmptyMixed => some source.allowsTruthy
  | _ => none

/-- The answer that null gives before the structure is looked at. -/
def nullAnswer? (r : CastRules ν) (source target : TypeTerm ν) : Option Bool :=
  match source with
  | basic nullable .nonEmptyMixed =>
    some (target.allowsTruthy || (nullable && target.allowsNull))
  | basic _ .mixed | basic _ .nonNullMixed | basic _ .nonNullNonEmptyMixed | basic _ .never => none
  | _ => if source.allowsNull && !target.allowsNull && !r.nullFlows then some false else none

def castBasic (r : CastRules ν) (nullable : Bool) (b : BasicKind) (target : TypeTerm ν) : Bool :=
  match b with
  | .nonEmptyMixed | .nonNullNonEmptyMixed => target.allowsTruthy
  | .mixed | .never => true
  | .nonNullMixed => !target.isBasic .null && !target.isBasic .never
  | .null => r.nullFlows || target.allowsNull
  | .object => (target.takesAsMixed? (basic nullable b)).getD <|
    match target with
    | basic _ .object | instanceOf _ _ => true
    | _ => false
  | _ => (target.takesAsMixed? (basic nullable b)).getD <|
    match target with
    | basic _ c => b.widens c || (r.scalarsFlow && c.isScalar)
    | _ => false

theorem castBasic_scalar (r : CastRules ν) {c : BasicKind} (scalar : c.isScalar = true)
    (nullable : Bool) (b : TypeTerm ν) :
    castBasic r nullable c b = (b.takesAsMixed? (basic nullable c)).getD (match b with
      | basic _ d => c.widens d || (r.scalarsFlow && d.isScalar)
      | _ => false) := by
  cases c <;> cases scalar <;> rfl

/-- Away from the mixed kinds null is guarded in one way. -/
theorem nullAnswer?_of_plain (r : CastRules ν) {a : TypeTerm ν} (plain : a.kind.isMixed = false)
    (b : TypeTerm ν) :
    nullAnswer? r a b =
      if a.allowsNull && !b.allowsNull && !r.nullFlows then some false else none := by
  cases a with
  | basic nullable c => cases c <;> first | rfl | cases plain
  | instanceOf | array => rfl

/-- The part of the cast that null decides never stands against a type itself. -/
theorem nullAnswer?_self (r : CastRules ν) (a : TypeTerm ν) :
    nullAnswer? r a a = none ∨ nullAnswer? r a a = some true := by
  cases a with
  | basic nullable b =>
    cases b with
    | nonEmptyMixed => right; rfl
    | _ => left; simp [nullAnswer?]
  | instanceOf nullable name => left; simp [nullAnswer?]
  | array nullable nonEmpty key elem => left; simp [nullAnswer?]

section Casts
variable [DecidableEq ν]

/-- The cast once null has been dealt with. -/
def castNonNull (r : CastRules ν) : TypeTerm ν → TypeTerm ν → Bool
  | basic nullable b, target => castBasic r nullable b target
  | instanceOf nullable sub, target => (target.takesAsMixed? (instanceOf nullable sub)).getD <|
    match target with
    | basic _ .object => true
    | instanceOf _ sup => sub = sup || r.below sub sup
    | _ => false
  | array nullable nonEmpty key elem, target =>
    (target.takesAsMixed? (array nullable nonEmpty key elem)).getD <|
    match target with
    | array _ nonEmpty' key' elem' =>
      (nonEmpty || !nonEmpty') && key'.admits key &&
        (nullAnswer? r elem elem').getD (castNonNull r elem elem')
    | _ => false

def cast (r : CastRules ν) (source target : TypeTerm ν) : Bool :=
  (nullAnswer? r source target).getD (castNonNull r source target)

/-- Null gets through a cast where the target takes it and where it may flow anywhere. -/
theorem cast_eq_true_iff_of_plain {r : CastRules ν} {a b : TypeTerm ν}
    (plain : a.kind.isMixed = false) :
    cast r a b = true ↔
      (a.allowsNull = true → b.allowsNull = true ∨ r.nullFlows = true) ∧
        castNonNull r a b = true := by
  rw [cast, nullAnswer?_of_plain r plain]
  cases a.allowsNull <;> cases b.allowsNull <;> cases r.nullFlows <;> simp

theorem castNonNull_instanceOf (r : CastRules ν) (nullable nullable' : Bool) (sub sup : ν) :
    castNonNull r (instanceOf nullable sub) (instanceOf nullable' sup) =
      (sub = sup || r.below sub sup) := rfl

theorem castNonNull_array (r : CastRules ν) (nullable nonEmpty : Bool) (key : ArrayKey)
    (elem : TypeTerm ν) (nullable' nonEmpty' : Bool) (key' : ArrayKey) (elem' : TypeTerm ν) :
    castNonNull r (array nullable nonEmpty key elem) (array nullable' nonEmpty' key' elem') =
      ((nonEmpty || !nonEmpty') && key'.admits key && cast r elem elem') := rfl

theorem cast_array (r : CastRules ν) (nonEmpty : Bool) (key : ArrayKey) (elem : TypeTerm ν)
    (nullable' nonEmpty' : Bool) (key' : ArrayKey) (elem' : TypeTerm ν) :
    cast r (array false nonEmpty key elem) (array nullable' nonEmpty' key' elem') =
      ((nonEmpty || !nonEmpty') && key'.admits key && cast r elem elem') := rfl

theorem castNonNull_self (r : CastRules ν) (a : TypeTerm ν) : castNonNull r a a = true := by
  induction a with
  | basic nullable b =>
    cases b with
    | null => exact Bool.or_true r.nullFlows
    | _ => rfl
  | instanceOf nullable name => simp [castNonNull, takesAsMixed?]
  | array nullable nonEmpty key elem ih =>
    have null : (nullAnswer? r elem elem).getD true = true := by
      rcases nullAnswer?_self r elem with same | same <;> rw [same] <;> rfl
    rw [castNonNull_array, cast, key.admits_self, ih, null]
    cases nonEmpty <;> rfl

theorem cast_self (r : CastRules ν) (a : TypeTerm ν) : cast r a a = true := by
  rw [cast, castNonNull_self]
  rcases nullAnswer?_self r a with same | same <;> rw [same] <;> rfl

/-! ### Overlap -/

def mixedMeets (mixed other : TypeTerm ν) : Bool :=
  match mixed with
  | basic _ .nonEmptyMixed | basic _ .nonNullNonEmptyMixed => other.allowsTruthy
  | basic _ .nonNullMixed => !other.isBasic .null && !other.isBasic .never
  | _ => !other.isBasic .never

def overlaps (a b : TypeTerm ν) : Bool :=
  if a.isBasic .never then false
  else if a.kind.isMixed then a.mixedMeets b
  else if b.kind.isMixed then b.mixedMeets a
  else if b.isBasic .never then false
  else if a.allowsNull && b.allowsNull then true
  else cast (.ofConfig none) a b || cast (.ofConfig none) b a

end Casts

/-! ### Renamed classes -/

section Renaming
variable (f : ν → μ)

@[simp] theorem isBasic_mapNames (b : BasicKind) (a : TypeTerm ν) :
    (a.mapNames f).isBasic b = a.isBasic b := by
  cases a <;> rfl

@[simp] theorem allowsNull_mapNames (a : TypeTerm ν) :
    (a.mapNames f).allowsNull = a.allowsNull := by
  cases a <;> rfl

@[simp] theorem allowsTruthy_mapNames (a : TypeTerm ν) :
    (a.mapNames f).allowsTruthy = a.allowsTruthy := by
  cases a with
  | basic nullable b => cases b <;> rfl
  | instanceOf | array => rfl

@[simp] theorem isMixed_mapNames (a : TypeTerm ν) :
    (a.mapNames f).kind.isMixed = a.kind.isMixed := by
  cases a <;> rfl

@[simp] theorem takesAsMixed?_mapNames (target source : TypeTerm ν) :
    (target.mapNames f).takesAsMixed? (source.mapNames f) = target.takesAsMixed? source := by
  cases target with
  | basic nullable b => cases b <;> simp only [mapNames, takesAsMixed?, allowsTruthy_mapNames]
  | instanceOf | array => rfl

@[simp] theorem mixedMeets_mapNames (mixed other : TypeTerm ν) :
    (mixed.mapNames f).mixedMeets (other.mapNames f) = mixed.mixedMeets other := by
  cases mixed with
  | basic nullable b =>
    cases b <;> simp only [mapNames, mixedMeets, allowsTruthy_mapNames, isBasic_mapNames]
  | instanceOf | array => simp only [mapNames, mixedMeets, isBasic_mapNames]

/-- Rules that agree on null and on scalars, and about the classes of two trees. -/
structure CastRules.Agree (r : CastRules ν) (q : CastRules μ) (a b : TypeTerm ν) : Prop where
  nullFlows : r.nullFlows = q.nullFlows
  scalarsFlow : r.scalarsFlow = q.scalarsFlow
  names : ∀ x ∈ a.names, ∀ y ∈ b.names, (f x = f y ↔ x = y) ∧ r.below x y = q.below (f x) (f y)

variable {f} {r : CastRules ν} {q : CastRules μ}

theorem nullAnswer?_mapNames (same : r.nullFlows = q.nullFlows) (a b : TypeTerm ν) :
    nullAnswer? q (a.mapNames f) (b.mapNames f) = nullAnswer? r a b := by
  cases a with
  | basic nullable c =>
    have null := allowsNull_mapNames f (basic nullable c)
    rw [mapNames] at null
    cases c <;>
      simp only [mapNames, nullAnswer?, allowsTruthy_mapNames, allowsNull_mapNames, null, same]
  | instanceOf nullable name =>
    simp only [mapNames, nullAnswer?, allowsNull_mapNames, same]; rfl
  | array nullable nonEmpty key elem =>
    simp only [mapNames, nullAnswer?, allowsNull_mapNames, same]; rfl

theorem castBasic_mapNames (sameNull : r.nullFlows = q.nullFlows)
    (sameScalars : r.scalarsFlow = q.scalarsFlow) (nullable : Bool) (c : BasicKind)
    (b : TypeTerm ν) : castBasic q nullable c (b.mapNames f) = castBasic r nullable c b := by
  have mixed := takesAsMixed?_mapNames f b (basic nullable c)
  rw [mapNames] at mixed
  cases b with
  | basic other d =>
    cases c <;> simp only [castBasic, allowsTruthy_mapNames, allowsNull_mapNames,
      isBasic_mapNames, mixed, sameNull, sameScalars] <;> cases d <;> rfl
  | instanceOf | array =>
    cases c <;> simp only [castBasic, allowsTruthy_mapNames, allowsNull_mapNames,
      isBasic_mapNames, mixed, sameNull] <;> rfl

variable [DecidableEq ν] [DecidableEq μ]

theorem castNonNull_mapNames {a b : TypeTerm ν} (agree : r.Agree f q a b) :
    castNonNull q (a.mapNames f) (b.mapNames f) = castNonNull r a b := by
  have mixed := takesAsMixed?_mapNames f b a
  induction a generalizing b with
  | basic nullable c => exact castBasic_mapNames agree.nullFlows agree.scalarsFlow nullable c b
  | instanceOf nullable name =>
    rw [mapNames] at mixed ⊢
    simp only [castNonNull, mixed]
    cases b with
    | basic other d => cases d <;> rfl
    | instanceOf other sup =>
      obtain ⟨same, below⟩ := agree.names name (List.mem_singleton_self name) sup
        (List.mem_singleton_self sup)
      simp only [mapNames, same, below]
    | array => rfl
  | array nullable nonEmpty key elem ih =>
    rw [mapNames] at mixed ⊢
    simp only [castNonNull, mixed]
    cases b with
    | basic other d => cases d <;> rfl
    | instanceOf => rfl
    | array other nonEmpty' key' elem' =>
      have inner : r.Agree f q elem elem' := ⟨agree.nullFlows, agree.scalarsFlow, agree.names⟩
      simp only [mapNames, nullAnswer?_mapNames agree.nullFlows,
        ih inner (takesAsMixed?_mapNames f elem' elem)]

theorem cast_mapNames {a b : TypeTerm ν} (agree : r.Agree f q a b) :
    cast q (a.mapNames f) (b.mapNames f) = cast r a b := by
  rw [cast, cast, castNonNull_mapNames agree, nullAnswer?_mapNames agree.nullFlows]

theorem overlaps_mapNames {a b : TypeTerm ν}
    (injective : ∀ x ∈ a.names, ∀ y ∈ b.names, f x = f y → x = y) :
    overlaps (a.mapNames f) (b.mapNames f) = overlaps a b := by
  have forth : (CastRules.ofConfig none).Agree f (.ofConfig none) a b :=
    ⟨rfl, rfl, fun x left y right => ⟨⟨injective x left y right, congrArg f⟩, rfl⟩⟩
  have back : (CastRules.ofConfig none).Agree f (.ofConfig none) b a :=
    ⟨rfl, rfl, fun y right x left =>
      ⟨⟨fun same => (injective x left y right same.symm).symm, congrArg f⟩, rfl⟩⟩
  simp only [overlaps, isBasic_mapNames, isMixed_mapNames, mixedMeets_mapNames,
    allowsNull_mapNames, cast_mapNames forth, cast_mapNames back]

end Renaming

end TypeTerm
end TypeLattice
