import TruenasMiddleware.Nvmet.Spdk
import TruenasMiddleware.Foundation.Effects
import TruenasMiddleware.Foundation.Transition

/-! What holds of the target after any runs of `write_config`, also after runs that raise: nothing
is there twice, the discovery subsystem stays, and the device of a namespace is named after its
type. -/

namespace TruenasMiddleware.Nvmet

open Reconcile Transition List

/-- The name of a device starts with its type, so it is not the text "None". -/
def Named : Item → Prop
  | .ns _ _ attached => attached.bdevName.head? ≠ some 'N'
  | _ => True

structure Inv (items : List Item) : Prop where
  unique : Unique spdk items
  discovery : has items (.subsystem NVMET_DISCOVERY_NQN) = true
  named : ∀ item ∈ items, Named item

variable {items after : List Item}

theorem has_iff {ident : Ident} : has items ident = true ↔ ∃ item ∈ items, item.ident = ident := by
  simp [has]

/-! ### Calls -/

def Good : Call Item Ident → Prop
  | .add item | .alter item => Named item
  | .remove ident => ident ≠ .subsystem NVMET_DISCOVERY_NQN
  | .fail => True

theorem Inv.effect {call : Call Item Ident} (good : Good call)
    (effect : Effect spdk call items after) (inv : Inv items) : Inv after := by
  have unique := effect.unique inv.unique
  obtain ⟨item, present, eq⟩ := has_iff.mp inv.discovery
  cases effect with
  | none => exact inv
  | add free =>
    refine ⟨unique, has_iff.mpr ⟨item, mem_append_left _ present, eq⟩, ?_⟩
    intro other mem
    rcases mem_append.mp mem with old | new
    · exact inv.named other old
    · exact mem_singleton.mp new ▸ good
  | @remove ident _ =>
    refine ⟨unique, has_iff.mpr ⟨item, mem_filter.mpr ⟨present, ?_⟩, eq⟩, ?_⟩
    · -- a subsystem goes with nothing else
      have alone : under ident item = false := by
        cases item with
        | subsystem live => cases ident <;> rfl
        | _ => cases eq
      have other : item.ident ≠ ident := fun equal => good (equal.symm.trans eq)
      exact Bool.and_eq_true_iff.mpr ⟨decide_eq_true other, Bool.not_eq_true' _ ▸ alone⟩
    · exact fun other mem => inv.named other (mem_filter.mp mem).1
  | @alter new _ =>
    refine ⟨unique, has_iff.mpr ?_, ?_⟩
    · refine ⟨_, mem_map.mpr ⟨item, present, rfl⟩, ?_⟩
      by_cases here : spdk.ident item = spdk.ident new
      · rw [if_pos here]
        exact here.symm.trans eq
      · rw [if_neg here]
        exact eq
    · intro other mem
      obtain ⟨old, present', rfl⟩ := mem_map.mp mem
      by_cases here : spdk.ident old = spdk.ident new
      · rw [if_pos here]
        exact good
      · rw [if_neg here]
        exact inv.named old present'

def GoodPlan (plan : List Item → Plan Item Ident) : Prop :=
  ∀ items, ∀ call ∈ (plan items).enter ++ (plan items).leave, Good call

variable {α : Type}

def GoodKind (kind : Kind α Item Ident Text) : Prop :=
  ∀ (objects : List α) (order : Order), GoodPlan ((kind.layer objects).plan order.arrange)

theorem goodKind_of {kind : Kind α Item Ident Text}
    (adds : ∀ object, ∀ call ∈ kind.add object, Good call)
    (updates : ∀ object item, kind.owns item = true → ∀ call ∈ kind.update object item, Good call)
    (deletes : ∀ item, kind.owns item = true → ∀ key, kind.listing item = .listed key →
      kind.keeps key = false → ∀ call ∈ kind.delete item, Good call) :
    GoodKind kind := by
  intro objects order items call mem
  rcases mem_append.mp mem with enters | leaves
  · rcases mem_plan_enter enters with rfl | ⟨object, _, added | ⟨item, _, owned, updated⟩⟩
    · exact trivial
    · exact adds object call added
    · exact updates object item owned call updated
  · obtain ⟨item, owned, deleted, key, listed, dropped⟩ := mem_plan_leave order.perm leaves
    exact deletes item owned key listed dropped call deleted

theorem goodKind_of_other (kind : Kind α Item Ident Text)
    (adds : ∀ object, ∀ call ∈ kind.add object, Good call)
    (updates : ∀ object item, kind.owns item = true → ∀ call ∈ kind.update object item, Good call)
    (deletes : ∀ item, kind.delete item = [.remove item.ident])
    (other : ∀ live, kind.owns (.subsystem live) = false) : GoodKind kind := by
  refine goodKind_of adds updates fun item owned key _ _ call mem => ?_
  rw [deletes item] at mem
  obtain rfl := mem_singleton.mp mem
  cases item with
  | subsystem live => exact absurd (owned.symm.trans (other live)) (by decide)
  | _ => exact nofun

theorem goodKind_of_static (kind : Kind α Item Ident Text)
    (adds : ∀ object, ∀ call ∈ kind.add object, Good call)
    (updates : ∀ object item, kind.update object item = [])
    (deletes : ∀ item, kind.delete item = [.remove item.ident])
    (other : ∀ live, kind.owns (.subsystem live) = false) : GoodKind kind := by
  refine goodKind_of_other kind adds (fun object item _ call mem => ?_) deletes other
  rw [updates object item] at mem
  cases mem

/-! ### The calls of the classes -/

section Classes

variable {digest : Text → Text} {config : Config}

theorem good_addToNqn (port : Port) (nqn : Text) :
    ∀ call ∈ addToNqn config port nqn, Good call := by
  intro call mem
  unfold addToNqn at mem
  split at mem
  · exact mem_singleton.mp mem ▸ trivial
  · rcases mem_cons.mp mem with rfl | later
    · exact trivial
    · split at later
      · exact mem_singleton.mp later ▸ trivial
      · cases later

theorem named_of_bdevName {entry : Namespace} {name : Text}
    (named : bdevName config entry = some name) : name.head? ≠ some 'N' := by
  unfold bdevName at named
  split at named
  · cases named
  split at named
  · cases named
  split at named <;> obtain rfl := Option.some.inj named <;>
    exact fun eq => absurd (Option.some.inj eq) (by decide)

theorem goodKind_subsysConfig : GoodKind (subsysConfig config) := by
  refine goodKind_of ?_ ?_ ?_
  · exact fun subsys call mem => mem_singleton.mp mem ▸ trivial
  · intro subsys item owned call mem
    cases item with
    | subsystem live =>
      simp only [subsysConfig] at mem
      split at mem
      · exact mem_singleton.mp mem ▸ trivial
      · cases mem
    | _ => cases owned
  · intro item owned key listed dropped call mem
    obtain rfl := mem_singleton.mp mem
    cases item with
    | subsystem live =>
      obtain rfl : live.nqn = key := Listing.listed.inj listed
      intro eq
      exact of_decide_eq_false dropped (Ident.subsystem.inj eq)
    | _ => cases owned

theorem goodKind_transportConfig : GoodKind transportConfig :=
  goodKind_of_static transportConfig (fun _ _ mem => List.mem_singleton.mp mem ▸ trivial)
    (fun _ _ => rfl) (fun _ => rfl) (fun _ => rfl)

theorem goodKind_keyringConfig (type : KeyType) : GoodKind (keyringConfig digest type) := by
  refine goodKind_of_static (keyringConfig digest type) (fun host call mem => ?_)
    (fun _ _ => rfl) (fun _ => rfl) (fun _ => rfl)
  obtain ⟨name, _, rfl⟩ := mem_map.mp mem
  exact trivial

theorem goodKind_portConfig : GoodKind (portConfig config) := by
  refine goodKind_of_other (portConfig config) (fun port => good_addToNqn port _)
    (fun port item owned call mem => ?_) (fun _ => rfl) (fun _ => rfl)
  cases item with
  | listener nqn address state =>
    simp only [portConfig] at mem
    split at mem
    · cases mem
    · rcases mem_cons.mp mem with rfl | later
      · exact nofun
      · exact good_addToNqn port _ call later
  | _ => cases owned

theorem goodKind_portAnaReferralConfig : GoodKind portAnaReferralConfig :=
  goodKind_of_static portAnaReferralConfig (fun _ _ mem => List.mem_singleton.mp mem ▸ trivial)
    (fun _ _ => rfl) (fun _ => rfl) (fun _ => rfl)

theorem goodPlan_referralPlan (order : Order) : GoodPlan (referralPlan config order) := by
  intro items call mem
  unfold referralPlan at mem
  split at mem
  · exact mem_singleton.mp mem ▸ trivial
  · exact goodKind_portAnaReferralConfig _ order items call mem

theorem goodKind_hostSubsysConfig : GoodKind (hostSubsysConfig digest) := by
  refine goodKind_of_other (hostSubsysConfig digest) (fun _ _ mem => mem_singleton.mp mem ▸ trivial)
    (fun entry item owned call mem => ?_) (fun _ => rfl) (fun _ => rfl)
  cases item with
  | host nqn hostnqn dhchapKey dhchapCtrlKey =>
    simp only [hostSubsysConfig] at mem
    split at mem
    · cases mem
    · rcases mem_pair.mp mem with rfl | rfl
      · exact nofun
      · exact trivial
  | _ => cases owned

theorem goodKind_portSubsysConfig : GoodKind (portSubsysConfig config) := by
  refine goodKind_of_other (portSubsysConfig config) (fun entry => good_addToNqn entry.port _)
    (fun entry item owned call mem => ?_) (fun _ => rfl) (fun _ => rfl)
  cases item with
  | listener nqn address state =>
    simp only [portSubsysConfig] at mem
    split at mem
    · cases mem
    · rcases mem_cons.mp mem with rfl | later
      · exact nofun
      · exact good_addToNqn entry.port _ call later
  | _ => cases owned

theorem goodPlan_anaStateConfig : GoodPlan (anaStateConfig config) := by
  have altered {items : List Item} {subsystems : List Subsys} {call : Call Item Ident}
      (mem : call ∈ subsystems.flatMap fun subsys =>
        items.filterMap (anaUpdate config subsys)) : Good call := by
    obtain ⟨subsys, _, inside⟩ := mem_flatMap.mp mem
    obtain ⟨item, _, eq⟩ := mem_filterMap.mp inside
    unfold anaUpdate at eq
    split at eq
    · split at eq <;> cases eq
      exact trivial
    · cases eq
  intro items call mem
  unfold anaStateConfig at mem
  dsimp only at mem
  split at mem
  · exact mem_singleton.mp mem ▸ trivial
  · split at mem
    · exact altered (append_nil _ ▸ mem)
    · exact altered mem

theorem goodKind_bdevConfig : GoodKind (bdevConfig config) := by
  refine goodKind_of_static (bdevConfig config) (fun entry call mem => ?_) (fun _ _ => rfl)
    (fun _ => rfl) (fun _ => rfl)
  obtain ⟨name, _, rfl⟩ := mem_map.mp mem
  exact trivial

theorem goodKind_namespaceConfig : GoodKind (namespaceConfig config) := by
  refine goodKind_of_static (namespaceConfig config) (fun entry call mem => ?_) (fun _ _ => rfl)
    (fun _ => rfl) (fun _ => rfl)
  obtain ⟨item, asked, rfl⟩ := mem_map.mp mem
  obtain ⟨name, named, rfl⟩ := Option.map_eq_some_iff.mp (Option.mem_toList.mp asked)
  exact named_of_bdevName named

theorem goodPlan_plans (order : Order) : ∀ plan ∈ plans digest order config, GoodPlan plan := by
  simp only [plans, forall_mem_cons]
  exact ⟨goodKind_subsysConfig _ order, goodKind_transportConfig _ order,
    goodKind_keyringConfig _ _ order, goodKind_keyringConfig _ _ order,
    goodKind_portConfig _ order, goodPlan_referralPlan order, goodKind_hostSubsysConfig _ order,
    goodKind_portSubsysConfig _ order, goodPlan_anaStateConfig, goodKind_bdevConfig _ order,
    goodKind_namespaceConfig _ order, forall_mem_nil _⟩

end Classes

/-! ### Runs -/

theorem Inv.fresh : Inv fresh where
  unique item member other mem' _ := by
    rw [mem_singleton.mp member, mem_singleton.mp mem']
  discovery := rfl
  named item member := mem_singleton.mp member ▸ trivial

variable {digest : Text → Text}

theorem Inv.step {run : Run} (inv : Inv items)
    (ran : step digest items run = some after) : Inv after := by
  have kept : Inv (outcome (writeConfig digest run.order run.config ⟨items, []⟩)).items :=
    render_keeps (fun good effect inv => Inv.effect good effect inv)
      (fun plan mem items => goodPlan_plans run.order plan mem items) inv
  unfold Nvmet.step at ran
  split at ran
  all_goals
    next state written =>
    rw [written] at kept
    cases ran
    exact kept

theorem Inv.of_reach (reached : Reach (Nvmet.step digest) Always Nvmet.fresh items) : Inv items :=
  reached.invariant Inv.fresh fun _ _ _ inv _ ran => inv.step ran

end TruenasMiddleware.Nvmet
