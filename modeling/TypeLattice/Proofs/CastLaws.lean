import Mathlib.Order.Defs.Unbundled
import TypeLattice.Proofs.Cast
import TypeLattice.Proofs.Hierarchy
import TypeLattice.Proofs.Terms.Values

/-!
Laws of casts between stored types. Away from the mixed kinds and `object` a cast is an order, under
all options and with declared classes; without options even a partial order, since types that cast
to each other have equal trees. And a strict cast keeps values: what belongs to its source belongs
to its target, unless the target speaks of truthy values only.
-/
namespace TypeLattice

namespace Pool
variable {p : Pool} (canonical : p.Canonical)
include canonical

theorem castDeclared?_of_term? (config : CastOptions) (resolver : Resolver)
    {source target : TypeId} {a b : TypeTerm NameId} (left : p.term? source = some a)
    (right : p.term? target = some b) :
    (p.castDeclared? config resolver source target).map Answer.holds =
      some (if a.isBasic .nonEmptyMixed then b.allowsTruthy
        else TypeTerm.cast (Rules.onTrees ⟨some config, some resolver⟩) a b) := by
  obtain ⟨s, known, shows⟩ := shows_of_term? left
  obtain ⟨t, known', shows'⟩ := shows_of_term? right
  rw [castDeclared?, entry?_of_shape? canonical known, entry?_of_shape? canonical known']
  have truthy : (Entry.of s).shape.kind = .basic .nonEmptyMixed ↔
      a.isBasic .nonEmptyMixed = true := Shape.kind_eq_basic_of_shows shows .nonEmptyMixed
  simp only [truthy]
  split
  · exact congrArg some (Shape.allowsTruthy_of_shows shows')
  · exact castFrom?_of_term? canonical _ left right true

theorem castDeclared?_of_other (config : CastOptions) (resolver : Resolver)
    {source target : TypeId} {a b : TypeTerm NameId} (left : p.term? source = some a)
    (right : p.term? target = some b) (other : a.isBasic .nonEmptyMixed = false) :
    (p.castDeclared? config resolver source target).map Answer.holds =
      some (TypeTerm.cast (Rules.onTrees ⟨some config, some resolver⟩) a b) := by
  rw [castDeclared?_of_term? canonical config resolver left right, other,
    if_neg Bool.false_ne_true]

end Pool

namespace Pool

def Casts (p : Pool) (config : Option CastOptions) (source target : TypeId) : Prop :=
  p.verdict? (.cast config) source target = some true

def CastsDeclared (p : Pool) (config : CastOptions) (resolver : Resolver)
    (source target : TypeId) : Prop :=
  (p.castDeclared? config resolver source target).map Answer.holds = some true

/-- A type of the pool without mixed kinds and without `object`. -/
def PlainType (p : Pool) : Type := { id : TypeId // ∃ a, p.term? id = some a ∧ a.Plain }

/-- A relation between stored types that is a cast between their trees is a preorder on the plain
ones, if the rules relate classes transitively. -/
theorem isPreorder_of_cast {p : Pool} {related : TypeId → TypeId → Prop} {r : TypeTerm.CastRules NameId}
    (below : ∀ x y z, r.below x y = true → r.below y z = true → r.below x z = true)
    (same : ∀ {source target a b}, p.term? source = some a → p.term? target = some b → a.Plain →
      (related source target ↔ TypeTerm.cast r a b = true)) :
    IsPreorder p.PlainType fun s t => related s.1 t.1 where
  refl := by
    rintro ⟨id, a, stored, plain⟩
    exact (same stored stored plain).mpr (TypeTerm.cast_self r a)
  trans := by
    rintro ⟨source, a, left, plain⟩ ⟨middle, b, between, plain'⟩ ⟨target, c, right, plain''⟩
    intro first second
    have forth := (same left between plain).mp first
    have onward := (same between right plain').mp second
    apply (same left right plain).mpr
    exact TypeTerm.cast_trans below plain plain' plain'' forth onward

section Orders
variable {p : Pool} (canonical : p.Canonical)
include canonical

theorem casts_iff (config : Option CastOptions) {source target : TypeId} {a b : TypeTerm NameId}
    (left : p.term? source = some a) (right : p.term? target = some b) :
    p.Casts config source target ↔ TypeTerm.cast (.ofConfig config) a b = true := by
  rw [Casts, verdict?_of_term? canonical (.cast config) left right, Option.some.injEq]
  exact Iff.rfl

theorem castsDeclared_iff (config : CastOptions) (resolver : Resolver) {source target : TypeId}
    {a b : TypeTerm NameId} (left : p.term? source = some a) (right : p.term? target = some b)
    (plain : a.Plain) :
    p.CastsDeclared config resolver source target ↔
      TypeTerm.cast (Rules.onTrees ⟨some config, some resolver⟩) a b = true := by
  have other : a.isBasic .nonEmptyMixed = false := by
    cases a with
    | basic nullable c =>
      have pure := (TypeTerm.plain_basic plain).1
      cases c <;> first | rfl | cases pure
    | instanceOf | array => rfl
  rw [CastsDeclared, castDeclared?_of_other canonical config resolver left right other,
    Option.some.injEq]

theorem casts_isPreorder (config : Option CastOptions) :
    IsPreorder p.PlainType fun s t => p.Casts config s.1 t.1 := by
  apply isPreorder_of_cast (r := .ofConfig config)
  · intro x y z first _
    exact first
  · intro source target a b left right _
    exact casts_iff canonical config left right

theorem castsDeclared_isPreorder (config : CastOptions) {resolver : Resolver}
    (trans : IsTrans NameId fun x y => resolver x y = true) :
    IsPreorder p.PlainType fun s t => p.CastsDeclared config resolver s.1 t.1 := by
  apply isPreorder_of_cast (r := Rules.onTrees ⟨some config, some resolver⟩)
  · exact trans.trans
  · intro source target a b left right plain
    exact castsDeclared_iff canonical config resolver left right plain

theorem casts_antisymm {source target : TypeId} {a b : TypeTerm NameId}
    (left : p.term? source = some a) (right : p.term? target = some b) (plain : a.Plain)
    (plain' : b.Plain) (forth : p.Casts none source target) (back : p.Casts none target source) :
    source = target := by
  have settled := term?_flagsSettled canonical left
  have settled' := term?_flagsSettled canonical right
  rw [casts_iff canonical none left right] at forth
  rw [casts_iff canonical none right left] at back
  have same := TypeTerm.cast_antisymm plain plain' settled settled' forth back
  rw [same] at left
  exact term?_injective canonical left right

end Orders

end Pool

theorem Hierarchy.isSubclass_isTrans (h : Hierarchy) :
    IsTrans NameId fun x y => h.isSubclass x y = true :=
  ⟨fun _ _ _ first second => h.isSubclass_trans first second⟩

namespace Registry

/-- Away from mixed kinds and `object`, casts are preorders, and without options and declared
classes a partial order. -/
theorem casts_are_orders {reg : Registry} (reached : Reachable reg) :
    (∀ config, IsPreorder reg.pool.PlainType fun s t => reg.pool.Casts config s.1 t.1) ∧
    (∀ config resolver, (IsTrans NameId fun x y => resolver x y = true) →
      IsPreorder reg.pool.PlainType fun s t => reg.pool.CastsDeclared config resolver s.1 t.1) ∧
    (∀ config (h : Hierarchy),
      IsPreorder reg.pool.PlainType fun s t => reg.pool.CastsDeclared config h.isSubclass s.1 t.1) ∧
    IsPartialOrder reg.pool.PlainType fun s t => reg.pool.Casts none s.1 t.1 := by
  have canonical := (reachable_closed reached).canonical
  refine ⟨?_, ?_, ?_, ?_⟩
  · intro config
    exact Pool.casts_isPreorder canonical config
  · intro config resolver trans
    exact Pool.castsDeclared_isPreorder canonical config trans
  · intro config h
    exact Pool.castsDeclared_isPreorder canonical config h.isSubclass_isTrans
  · refine { Pool.casts_isPreorder canonical none with antisymm := ?_ }
    rintro ⟨source, a, left, plain⟩ ⟨target, b, right, plain'⟩
    intro forth back
    exact Subtype.ext (Pool.casts_antisymm canonical left right plain plain' forth back)

theorem nonZeroInt_casts_through_int :
    let reg := (empty.internClass "Foo").2
    Reachable reg ∧ reg.pool.Casts none (.basic .nonZeroInt) (.basic .float) := by
  intro reg
  have reached : Reachable reg := reachable_internClass .fresh (by decide)
  have canonical := (reachable_closed reached).canonical
  have stored (b : BasicKind) : reg.pool.term? (.basic b) = some (.basic false b) :=
    Pool.term?_eq_basic.mpr rfl
  let plain (b : BasicKind) (pure : b.isMixed = false ∧ b ≠ .object) : reg.pool.PlainType :=
    ⟨.basic b, _, stored b, fun c member => List.mem_singleton.mp member ▸ pure⟩
  have narrow : reg.pool.Casts none (.basic .nonZeroInt) (.basic .int) :=
    (Pool.casts_iff canonical none (stored _) (stored _)).mpr (by decide)
  have wide : reg.pool.Casts none (.basic .int) (.basic .float) :=
    (Pool.casts_iff canonical none (stored _) (stored _)).mpr (by decide)
  have order := (casts_are_orders reached).2.2.2
  exact ⟨reached, order.trans (plain .nonZeroInt (by decide)) (plain .int (by decide))
    (plain .float (by decide)) narrow wide⟩

/-- Every value of a type that strictly casts to another is a value of the other, unless the first
speaks of anything mixed or of any object, or the second of truthy values. -/
theorem strict_casts_keep_values {reg : Registry} (reached : Reachable reg)
    {source target : TypeId} {s t : TypeShape} (known : reg.pool.shape? source = some s)
    (known' : reg.pool.shape? target = some t) :
    ∃ a b, reg.pool.term? source = some a ∧ reg.pool.term? target = some b ∧
      (a.Plain → b.Definite → ∀ h : Hierarchy,
        reg.pool.Casts none source target ∨
          reg.pool.CastsDeclared .strict h.isSubclass source target →
        ∀ v, a.contains h.isSubclass v = true → b.contains h.isSubclass v = true) := by
  have closed := reachable_closed reached
  obtain ⟨a, left⟩ := term?_of_shape? closed known
  obtain ⟨b, right⟩ := term?_of_shape? closed known'
  have settled := Pool.term?_flagsSettled closed.canonical left
  have settled' := Pool.term?_flagsSettled closed.canonical right
  refine ⟨a, b, left, right, ?_⟩
  intro plain definite h casts v member
  have trans : ∀ x y z, h.isSubclass x y = true → h.isSubclass y z = true →
      h.isSubclass x z = true := fun _ _ _ => h.isSubclass_trans
  rcases casts with holds | holds
  · rw [Pool.casts_iff closed.canonical none left right] at holds
    have strict : (TypeTerm.CastRules.ofConfig none).StrictIn h.isSubclass :=
      ⟨rfl, rfl, nofun, trans⟩
    exact TypeTerm.contains_of_cast strict plain settled definite settled' holds member
  · rw [Pool.castsDeclared_iff closed.canonical _ _ left right plain] at holds
    have strict : (Rules.onTrees ⟨some .strict, some h.isSubclass⟩).StrictIn h.isSubclass :=
      ⟨rfl, rfl, fun _ _ under => under, trans⟩
    exact TypeTerm.contains_of_cast strict plain settled definite settled' holds member

theorem listed_admin_is_among_users :
    let admin := empty.internClass "Admin"
    let user := admin.2.internClass "User"
    let admins := user.2.intern (.of (.array true .int admin.1) false)
    let users := admins.2.intern (.of (.array false .mixed user.1) false)
    ∃ (h : Hierarchy) (b : TypeTerm NameId), Reachable users.2 ∧
      users.2.pool.CastsDeclared .strict h.isSubclass admins.1 users.1 ∧
      users.2.pool.term? users.1 = some b ∧
      b.contains h.isSubclass (.array [(.int 0, .object (empty.internName "Admin").1)]) = true := by
  intro admin user admins users
  let low := (empty.internName "Admin").1
  let high := (admin.2.internName "User").1
  have reached : Reachable admin.2 := reachable_internClass .fresh (by decide)
  have reached' : Reachable user.2 := reachable_internClass reached (by decide)
  have closed := reachable_closed reached'
  have kept : user.2.pool.term? admin.1 = some (.instanceOf false low) :=
    Pool.term?_extends (Pool.extends_intern _ _) (term?_internClass empty_closed "Admin")
  have listed := term?_intern_array closed kept true .int
  have reached'' : Reachable admins.2 :=
    Reachable.step (.array true .int admin.1) reached' (Pool.shape?_of_term? kept)
  have second' : admins.2.pool.term? user.1 = some (.instanceOf false high) :=
    Pool.term?_extends (Pool.extends_intern _ _)
      (term?_internClass (reachable_closed reached) "User")
  have whole : Reachable users.2 :=
    Reachable.step (.array false .mixed user.1) reached'' (Pool.shape?_of_term? second')
  have source : users.2.pool.term? admins.1 = some (.array false true .int (.instanceOf false low)) :=
    Pool.term?_extends (Pool.extends_intern _ _) listed
  have target := term?_intern_array (reachable_closed reached'') second' false .mixed
  let h : Hierarchy := ⟨[⟨low, high⟩]⟩
  have under : h.isSubclass low high = true :=
    (h.isSubclass_iff low high).mpr (.single (List.mem_singleton_self _))
  have plain (name : NameId) : (TypeTerm.instanceOf false name).Plain := nofun
  have definite : (TypeTerm.array false false .mixed (.instanceOf false high)).Definite := nofun
  have casts : users.2.pool.CastsDeclared .strict h.isSubclass admins.1 users.1 := by
    have canonical := (reachable_closed whole).canonical
    apply (Pool.castsDeclared_iff canonical _ _ source target (plain low)).mpr
    have inner : TypeTerm.cast (Rules.onTrees ⟨some .strict, some h.isSubclass⟩)
        (.instanceOf false low) (.instanceOf false high) = true :=
      (TypeTerm.cast_eq_true_iff (plain low)).mpr
        ⟨nofun, TypeTerm.castNonNull_of_arrow (.instanceOf _ _ (.inr under)) (plain high)⟩
    refine (TypeTerm.cast_eq_true_iff ?_).mpr ⟨nofun, TypeTerm.castNonNull_of_arrow ?_ ?_⟩
    · exact plain low
    · exact .array false false nofun rfl inner
    · exact plain high
  obtain ⟨s, known⟩ := Pool.shape?_of_term? source
  obtain ⟨t, known'⟩ := Pool.shape?_of_term? target
  obtain ⟨a, b, left, right, keeps⟩ := strict_casts_keep_values whole known known'
  cases left.symm.trans source
  cases right.symm.trans target
  refine ⟨h, _, whole, casts, target, keeps (plain low) definite h (Or.inr casts) _ ?_⟩
  simp [TypeTerm.contains, ArrayKey.allows, low]

end Registry
end TypeLattice
