import SriovMacSync.Sysfs.Moments
import SriovMacSync.Sysfs.Pictures

namespace SriovMacSync.Sysfs

open Data Netlink Interaction Interaction.Action

/-! # What a reading believes of a device is that device's

The directory of a name is believed when it answers for the index before and after it is
read: had another interface taken the name in between, the index could not have it back. -/

variable {devices : Index → Device} {scene after : Scene} {name : Name} {index : Index}
  {facts : Facts} {found : DeviceFacts}

/-- The facts are those of the device; the netdevs are named as they are or were. -/
structure Scene.Knows (devices : Index → Device) (scene : Scene) (index : Index) (found : DeviceFacts) :
    Prop where
  driver : found.driver = (devices index).driver
  isVf : found.isVf = (devices index).physfn.isSome
  vfNumber : found.vfNumber = (devices index).vfNumber
  netdevs : ∀ netdev ∈ found.pfNetdevs, ∃ pf ∈ (devices index).physfn.getD [], scene.borne netdev pf

/-- What is remembered under every index is known of it. -/
def Scene.Honest (devices : Index → Device) (scene : Scene) (facts : Facts) : Prop :=
  ∀ index found, facts index = some found → scene.Knows devices index found

/-- Interfaces may do anything in between, names given up and taken back included. -/
structure Scene.Since (before after : Scene) : Prop where
  sound : after.Sound
  borne {name : Name} {index : Index} : before.borne name index → after.borne name index

namespace Scene

theorem Since.knows (since : scene.Since after) (knows : scene.Knows devices index found) :
    after.Knows devices index found where
  driver := knows.driver
  isVf := knows.isVf
  vfNumber := knows.vfNumber
  netdevs netdev listed := by
    obtain ⟨pf, own, borne⟩ := knows.netdevs netdev listed
    exact ⟨pf, own, since.borne borne⟩

theorem Since.honest (since : scene.Since after) (honest : scene.Honest devices facts) :
    after.Honest devices facts :=
  fun index found known => since.knows (honest index found known)

theorem Later.since (later : scene.Later after) (sound : scene.Sound) : scene.Since after :=
  ⟨later.sound sound, later.borne⟩

end Scene

section Questions

/-- Every file is read at a later moment, and the memory is left alone. -/
theorem ask_moving {request : SysfsCall} :
    Safe (moving devices) (ask request) (fun reply memory after =>
      memory = facts ∧ scene.Later after ∧ after.Replies devices request reply) facts scene :=
  ⟨trivial, fun _ _ answered => ⟨rfl, answered⟩⟩

theorem answersFor_moving :
    Safe (moving devices) (answersFor name index) (fun yes memory after =>
      memory = facts ∧ scene.Later after ∧ (yes = true → after.called index = some name)) facts scene := by
  refine safe_bind.mpr (ask_moving.mono ?_)
  intro text memory after told
  obtain ⟨same, later, answer⟩ := told
  refine ⟨same, later, fun yes => ?_⟩
  have number : numberIn text = some index := of_decide_eq_true yes
  by_contra apart
  have nobody : ∀ other, after.called other ≠ some name := by
    intro other called
    have same := answer.1 other called index number
    exact apart (same ▸ called)
  rw [answer.2 nobody] at number
  cases number

theorem findVirtfn_moving {own : String} {entries : List Text} (borne : scene.borne name index) :
    Safe (moving devices) (findVirtfn name own entries) (fun number memory after =>
      memory = facts ∧ scene.Later after ∧
        (number = firstVirtfn (devices index).target own entries ∨ after.Gone name index)) facts scene := by
  induction entries generalizing scene with
  | nil => exact ⟨rfl, .refl, .inl rfl⟩
  | cons entry rest ih =>
      rw [findVirtfn, firstVirtfn]
      cases virtfnNumber entry with
      | none => exact ih borne
      | some number =>
          refine safe_bind.mpr (ask_moving.mono ?_)
          intro target memory middle told
          obtain ⟨same, later, answer⟩ := told
          subst same
          rcases answer.own (later.borne borne) with here | gone
          · rw [← here]
            split
            · exact ⟨rfl, later, .inl rfl⟩
            · refine (ih (later.borne borne)).mono ?_
              intro number memory after told
              exact ⟨told.1, later.trans told.2.1, told.2.2⟩
          · split
            · exact ⟨rfl, later, .inr gone⟩
            · refine (ih (later.borne borne)).mono ?_
              intro number memory after told
              exact ⟨told.1, later.trans told.2.1, .inr (told.2.1.gone gone)⟩

theorem vfNumberOf_moving (borne : scene.borne name index) :
    Safe (moving devices) (vfNumberOf name) (fun number memory after =>
      memory = facts ∧ scene.Later after ∧
        (number = (devices index).vfNumber ∨ after.Gone name index)) facts scene := by
  refine safe_bind.mpr (ask_moving.mono ?_)
  intro own memory middle told
  obtain ⟨same, later, owned⟩ := told
  subst same
  have owned := owned.own (later.borne borne)
  cases own with
  | none =>
      refine ⟨rfl, later, owned.imp_left fun here => ?_⟩
      rw [Device.vfNumber, ← here]
  | some own =>
      refine safe_bind.mpr (ask_moving.mono ?_)
      intro entries memory middle' told
      obtain ⟨same, later', listed⟩ := told
      subst same
      have listed := listed.own ((later.trans later').borne borne)
      cases entries with
      | none =>
          refine ⟨rfl, later.trans later', ?_⟩
          rcases listed with here | gone
          · rcases owned with owned | gone
            · exact .inl (by rw [Device.vfNumber, ← here, ← owned])
            · exact .inr (later'.gone gone)
          · exact .inr gone
      | some entries =>
          refine (findVirtfn_moving ((later.trans later').borne borne)).mono ?_
          intro number memory after told
          obtain ⟨same, later'', found⟩ := told
          refine ⟨same, (later.trans later').trans later'', ?_⟩
          rcases found with found | gone
          · rcases owned with owned | gone
            · rcases listed with listed | gone
              · exact .inl (by rw [found, Device.vfNumber, ← owned, ← listed])
              · exact .inr (later''.gone gone)
            · exact .inr ((later'.trans later'').gone gone)
          · exact .inr gone

/-- A directory that answers for the index at the end was its own all along. -/
theorem readFacts_moving (sound : scene.Sound) (borne : scene.borne name index) :
    Safe (moving devices) (readFacts name index) (fun result memory after =>
      memory = facts ∧ scene.Later after ∧
        ∀ found ∈ result, after.Knows devices index found) facts scene := by
  refine safe_bind.mpr (ask_moving.mono ?_)
  intro driver memory scene₁ told
  obtain ⟨same, later₁, driven⟩ := told
  subst same
  refine safe_bind.mpr (ask_moving.mono ?_)
  intro netdevs memory scene₂ told
  obtain ⟨same, later₂, named⟩ := told
  subst same
  refine safe_bind.mpr (ask_moving.mono ?_)
  intro isVf memory scene₃ told
  obtain ⟨same, later₃, virtual⟩ := told
  subst same
  have borne₁ := later₁.borne borne
  have borne₂ := later₂.borne borne₁
  have borne₃ := later₃.borne borne₂
  refine safe_bind.mpr ((vfNumberOf_moving borne₃).mono ?_)
  intro number memory scene₄ told
  obtain ⟨same, later₄, numbered⟩ := told
  subst same
  refine safe_bind.mpr (answersFor_moving.mono ?_)
  intro yes memory after told
  obtain ⟨same, later₅, called⟩ := told
  subst same
  have whole : scene.Later after := (((later₁.trans later₂).trans later₃).trans later₄).trans later₅
  cases yes with
  | false => exact ⟨rfl, whole, fun _ none => absurd none (Option.some_ne_none _).symm⟩
  | true =>
      have stays : ¬ after.Gone name index := fun gone => gone.2 (called rfl)
      refine ⟨rfl, whole, fun found some => ?_⟩
      obtain rfl := Option.some.inj some
      refine {
        driver := (driven.own borne₁).resolve_right fun gone =>
          stays ((((later₂.trans later₃).trans later₄).trans later₅).gone gone)
        isVf := (virtual.own borne₃).resolve_right fun gone => stays ((later₄.trans later₅).gone gone)
        vfNumber := numbered.resolve_right fun gone => stays (later₅.gone gone)
        netdevs := fun netdev listed => ?_ }
      have own := (named.own borne₂).resolve_right fun gone =>
        stays (((later₃.trans later₄).trans later₅).gone gone)
      cases netdevs with
      | none => cases listed
      | some names =>
          obtain ⟨pf, counted, bears⟩ := own names rfl netdev listed
          have sound₂ := (later₁.trans later₂).sound sound
          exact ⟨pf, counted, ((later₃.trans later₄).trans later₅).borne (sound₂.borne bears)⟩

/-- What is taken from memory or read anew is known of the device, and so is what is
remembered afterwards. -/
theorem deviceFacts_moving {stale : DeviceFacts → Bool} (sound : scene.Sound)
    (honest : scene.Honest devices facts) (borne : scene.borne name index) :
    Safe (moving devices) (deviceFacts index stale (readFacts name index)) (fun result memory after =>
      scene.Later after ∧ after.Honest devices memory ∧
        ∀ found ∈ result, after.Knows devices index found) facts scene := by
  refine safe_bind.mpr (safe_get.mpr ?_)
  split
  · rename_i known kept
    refine ⟨.refl, honest, fun found same => ?_⟩
    obtain rfl := Option.some.inj same
    exact honest index known (Option.eq_some_of_filter_eq_some kept)
  · refine safe_bind.mpr ((readFacts_moving sound borne).mono ?_)
    intro result memory after told
    obtain ⟨same, later, knows⟩ := told
    subst same
    cases result with
    | none => exact ⟨later, (later.since sound).honest honest, fun _ none => absurd none (Option.some_ne_none _).symm⟩
    | some fresh =>
        refine safe_bind.mpr (safe_modify.mpr ⟨later, fun other found known => ?_, knows⟩)
        change Function.update memory index (some fresh) other = some found at known
        by_cases here : other = index
        · subst here
          rw [Function.update_self] at known
          exact knows found known
        · rw [Function.update_of_ne here] at known
          exact (later.since sound).knows (honest other found known)

end Questions

section Readings

variable {infos : List LinkInfo} {byName : Name → Option Index} {namesParents : Bool}

/-- Nothing is added to a link, or what is known of its device. -/
def Scene.Adds (devices : Index → Device) (scene : Scene) (index : Index) (extras : Extras) : Prop :=
  extras.facts = {} ∨ scene.Knows devices index extras.facts

theorem hasDevice_moving {info : LinkInfo} :
    Safe (moving devices) (hasDevice namesParents info) (fun _ memory after =>
      memory = facts ∧ scene.Later after) facts scene := by
  have asked : Safe (moving devices) (probed namesParents info) (fun _ memory after =>
      memory = facts ∧ scene.Later after) facts scene := by
    rw [probed]
    split
    · exact ⟨rfl, .refl⟩
    · split
      · exact ask_moving.mono fun _ _ _ told => ⟨told.1, told.2.1⟩
      · exact ⟨rfl, .refl⟩
  refine safe_bind.mpr (asked.mono ?_)
  intro yes memory middle told
  obtain ⟨same, later⟩ := told
  subst same
  split
  · exact answersFor_moving.mono fun _ _ _ told => ⟨told.1, later.trans told.2.1⟩
  · exact ⟨rfl, later⟩

theorem readExtras_moving {info : LinkInfo} (sound : scene.Sound) (honest : scene.Honest devices facts)
    (borne : scene.borne info.name info.index) :
    Safe (moving devices) (readExtras namesParents byName info) (fun extras memory after =>
      scene.Later after ∧ after.Honest devices memory ∧ after.Adds devices info.index extras) facts scene := by
  refine safe_bind.mpr (hasDevice_moving.mono ?_)
  intro yes memory scene₁ told
  obtain ⟨same, later₁⟩ := told
  subst same
  split
  · refine safe_bind.mpr (ask_moving.mono ?_)
    intro text memory scene₂ told
    obtain ⟨same, later₂, _⟩ := told
    subst same
    have later := later₁.trans later₂
    refine safe_bind.mpr ((deviceFacts_moving (later.sound sound) ((later.since sound).honest honest)
      (later.borne borne)).mono ?_)
    intro result memory after told
    obtain ⟨later₃, honest', knows⟩ := told
    refine ⟨later.trans later₃, honest', ?_⟩
    cases result with
    | none => exact .inl rfl
    | some found => exact .inr (knows found rfl)
  · exact ⟨later₁, (later₁.since sound).honest honest, .inl rfl⟩

theorem readNodes_moving (sound : scene.Sound) (honest : scene.Honest devices facts)
    (borne : ∀ info ∈ infos, scene.borne info.name info.index) :
    Safe (moving devices) (readNodes namesParents byName infos) (fun nodes memory after =>
      scene.Later after ∧ after.Honest devices memory ∧
        List.Forall₂ (fun info node => ∃ extras, node = info.node byName extras ∧
          after.Adds devices info.index extras) infos nodes) facts scene := by
  induction infos generalizing facts scene with
  | nil => exact ⟨.refl, honest, .nil⟩
  | cons info rest ih =>
      refine safe_bind.mpr ((readExtras_moving sound honest (borne info (by simp))).mono ?_)
      intro extras memory middle told
      obtain ⟨later, honest', adds⟩ := told
      have tail := ih (later.sound sound) honest' fun other listed =>
        later.borne (borne other (List.mem_cons_of_mem _ listed))
      refine safe_bind.mpr (tail.mono ?_)
      intro nodes memory after told
      obtain ⟨later', honest'', read⟩ := told
      refine ⟨later.trans later', honest'', .cons ⟨extras, rfl, ?_⟩ read⟩
      exact adds.imp_right (later'.since (later.sound sound)).knows

/-- What a picture has of an interface's device is that device's.  A netdev listed as its
physical function's is one, or has taken over the name of one. -/
structure Scene.Owns (devices : Index → Device) (scene : Scene) (node : Node) : Prop where
  driver : node.driver = none ∨ node.driver = (devices node.index).driver
  isVf : node.isVf = true → (devices node.index).physfn.isSome
  vfNumber : node.vfNumber = none ∨ node.vfNumber = (devices node.index).vfNumber
  pfNetdevs : ∀ listed ∈ node.pfNetdevs, listed ∈ (devices node.index).physfn.getD [] ∨
    ∃ name, ∃ pf ∈ (devices node.index).physfn.getD [], pf ≠ listed ∧
      scene.borne name pf ∧ scene.borne name listed

theorem Scene.Adds.owns {info : LinkInfo} {extras : Extras} (adds : scene.Adds devices info.index extras)
    (named : ∀ name found, byName name = some found → scene.borne name found) :
    scene.Owns devices (info.node byName extras) := by
  rcases adds with nothing | knows
  · have bare : info.node byName extras = info.node byName { extras with facts := {} } := by
      rw [← nothing]
    rw [bare]
    exact ⟨.inl rfl, fun yes => absurd yes Bool.false_ne_true, .inl rfl,
      fun _ listed => absurd listed List.not_mem_nil⟩
  · refine ⟨.inr knows.driver, fun yes => knows.isVf.symm.trans yes, .inr knows.vfNumber, ?_⟩
    intro listed member
    have found : listed ∈ (extras.facts.pfNetdevs.filterMap byName).insertionSort (· ≤ ·) := member
    rw [List.mem_insertionSort, List.mem_filterMap] at found
    obtain ⟨name, cached, resolved⟩ := found
    obtain ⟨pf, own, bore⟩ := knows.netdevs name cached
    by_cases same : pf = listed
    · exact .inl (same ▸ own)
    · exact .inr ⟨name, pf, own, same, bore, named name listed resolved⟩

/-- One reading after another, from a fresh process on, on a host whose interfaces come,
go and are renamed all the while; while a reading lasts none goes back to a name it had. -/
inductive Readings (devices : Index → Device) : Facts → Option Picture → Scene → Prop where
  | start {scene : Scene} (sound : scene.Sound) : Readings devices (fun _ => none) none scene
  | reading {facts left : Facts} {last : Option Picture} {scene dumped after : Scene}
      {infos : List LinkInfo} {picture : Picture} (before : Readings devices facts last scene)
      (since : scene.Since dumped) (distinct : (infos.map (·.index)).Nodup)
      (dump : ∀ info ∈ infos, dumped.called info.index = some info.name)
      (ran : Runs (moving devices) (fromLinks infos) facts dumped picture left after) :
      Readings devices left (some picture) after

theorem fromLinks_moving (sound : scene.Sound) (honest : scene.Honest devices facts)
    (distinct : (infos.map (·.index)).Nodup) (dump : ∀ info ∈ infos, scene.called info.index = some info.name) :
    Safe (moving devices) (fromLinks infos) (fun picture memory after =>
      scene.Later after ∧ after.Honest devices memory ∧
        ∀ node ∈ picture.nodes, after.Owns devices node) facts scene := by
  have borne : ∀ info ∈ infos, scene.borne info.name info.index :=
    fun info listed => sound.borne (dump info listed)
  refine safe_bind.mpr ((readNodes_moving sound honest borne).mono ?_)
  intro nodes memory after told
  obtain ⟨later, honest', added⟩ := told
  have read : ReadFrom (nameTable infos) infos nodes := by
    apply List.Forall₂.imp _ added
    intro info node made
    obtain ⟨extras, same, _⟩ := made
    exact ⟨extras, same⟩
  have places : (nodes.map Node.place).Nodup := by
    rw [read.places]
    exact distinct
  have named : ∀ name found, nameTable infos name = some found → after.borne name found := by
    intro name found resolved
    rw [nameTable_eq] at resolved
    obtain ⟨info, hit, same⟩ := Option.map_eq_some_iff.mp resolved
    have called : info.name = name := by simpa using List.find?_some hit
    have listed := List.mem_reverse.mp (List.mem_of_find?_eq_some hit)
    exact called ▸ same ▸ later.borne (borne info listed)
  refine ⟨later, honest', fun node member => ?_⟩
  obtain ⟨base, listed, _, _, _, _, assembled⟩ := read.assembled places member
  have owns : after.Owns devices base := by
    obtain ⟨info, _, extras, same, adds⟩ := exists_of_forall₂ added listed
    exact same ▸ adds.owns named
  rw [assembled]
  exact ⟨owns.driver, owns.isVf, owns.vfNumber, owns.pfNetdevs⟩

theorem Readings.honest {last : Option Picture} (read : Readings devices facts last scene) :
    scene.Sound ∧ scene.Honest devices facts := by
  induction read with
  | start sound => exact ⟨sound, fun _ _ none => absurd none (Option.some_ne_none _).symm⟩
  | reading _ since distinct dump ran ih =>
      obtain ⟨later, honest, _⟩ :=
        (fromLinks_moving since.sound (since.honest ih.2) distinct dump).runs ran
      exact ⟨later.sound since.sound, honest⟩

end Readings

section Examples

theorem trim_of_isField {text : Text} (field : IsField text) : Cache.trim text = text := by
  have front : text.dropWhile isWhitespace = text := by
    rw [List.dropWhile_eq_self_iff]
    intro nonempty
    rw [field.2 _ (List.getElem_mem _)]
    decide
  rw [Cache.trim, front, List.rdropWhile_eq_self_iff]
  intro nonempty
  rw [field.2 _ (List.getLast_mem _)]
  decide

theorem numberIn_decimal (index : Index) : numberIn (some (decimal index.toNat)) = some index := by
  rw [numberIn, Option.bind_some, trim_of_isField (isField_decimal _), parseIndex, parseDecimal_decimal,
    Option.bind_some, if_pos index.toNat_lt, UInt32.ofNat_toNat]

def calledOf (infos : List LinkInfo) (index : Index) : Option Name :=
  (infos.find? (·.index == index)).map (·.name)

def bearerOf (infos : List LinkInfo) (name : Name) : Option Index :=
  (infos.find? (·.name == name)).map (·.index)

/-- The directories of a host that stays as a dump has it. -/
def still (devices : Index → Device) (infos : List LinkInfo) : (request : SysfsCall) → SysfsReply request
  | .isDevice name => (bearerOf infos name).isSome
  | .numvfs _ => none
  | .ifindex name => (bearerOf infos name).map fun index => decimal index.toNat
  | .driver name => (bearerOf infos name).bind fun index => (devices index).driver
  | .device name => (bearerOf infos name).bind fun index => (devices index).own
  | .hasPhysfn name => (bearerOf infos name).any fun index => (devices index).physfn.isSome
  | .physfnNet name => (bearerOf infos name).bind fun index =>
      (devices index).physfn.map (List.filterMap (calledOf infos))
  | .physfnEntries name => (bearerOf infos name).bind fun index => (devices index).entries
  | .physfnEntry name entry => (bearerOf infos name).bind fun index => (devices index).target entry

theorem still_answers {infos : List LinkInfo} (called : scene.called = calledOf infos)
    (bearers : ∀ name index, bearerOf infos name = some index ↔ calledOf infos index = some name)
    (request : SysfsCall) :
    (moving devices).answers scene request (still devices infos request) scene := by
  have at' {name : Name} {here : Index → Prop} {absent : Prop}
      (found : ∀ index, bearerOf infos name = some index → here index)
      (missing : bearerOf infos name = none → absent) : scene.At name here absent := by
    rw [Scene.At, called]
    refine ⟨fun index bears => found index ((bearers name index).mpr bears), fun nobody => missing ?_⟩
    rw [Option.eq_none_iff_forall_ne_some]
    exact fun index bears => nobody index ((bearers name index).mp bears)
  refine ⟨.refl, ?_⟩
  cases request with
  | isDevice name => trivial
  | numvfs name => trivial
  | ifindex name =>
      refine at' (fun index found => ?_) fun missing => by simp [still, missing]
      simp [still, found, numberIn_decimal]
  | driver name => exact at' (fun index found => by simp [still, found]) fun missing => by simp [still, missing]
  | device name => exact at' (fun index found => by simp [still, found]) fun missing => by simp [still, missing]
  | hasPhysfn name => exact at' (fun index found => by simp [still, found]) fun missing => by simp [still, missing]
  | physfnEntries name =>
      exact at' (fun index found => by simp [still, found]) fun missing => by simp [still, missing]
  | physfnEntry name entry =>
      exact at' (fun index found => by simp [still, found]) fun missing => by simp [still, missing]
  | physfnNet name =>
      refine at' (fun index found names listed netdev named => ?_) fun missing => by simp [still, missing]
      rw [still, found, Option.bind_some] at listed
      obtain ⟨pfs, physfn, same⟩ := Option.map_eq_some_iff.mp listed
      rw [← same, List.mem_filterMap] at named
      obtain ⟨pf, own, bears⟩ := named
      exact ⟨pf, by rw [physfn]; exact own, by rw [called]; exact bears⟩

theorem bearers_of_distinct {infos : List LinkInfo} (names : (infos.map (·.name)).Nodup)
    (indices : (infos.map (·.index)).Nodup) (name : Name) (index : Index) :
    bearerOf infos name = some index ↔ calledOf infos index = some name := by
  have bearer : bearerOf infos name = some index ↔ ∃ info ∈ infos, info.name = name ∧ info.index = index := by
    rw [bearerOf, Option.map_eq_some_iff]
    constructor
    · intro found
      obtain ⟨info, hit, same⟩ := found
      exact ⟨info, List.mem_of_find?_eq_some hit, by simpa using List.find?_some hit, same⟩
    · intro listed
      obtain ⟨info, member, named, same⟩ := listed
      cases hit : infos.find? (·.name == name) with
      | none => exact absurd named (by simpa using List.find?_eq_none.mp hit info member)
      | some other =>
          have named' : other.name = name := by simpa using List.find?_some hit
          have same' := List.inj_on_of_nodup_map names (List.mem_of_find?_eq_some hit) member (named'.trans named.symm)
          exact ⟨other, rfl, same'.symm ▸ same⟩
  have called : calledOf infos index = some name ↔ ∃ info ∈ infos, info.name = name ∧ info.index = index := by
    rw [calledOf, Option.map_eq_some_iff]
    constructor
    · intro found
      obtain ⟨info, hit, same⟩ := found
      exact ⟨info, List.mem_of_find?_eq_some hit, same, by simpa using List.find?_some hit⟩
    · intro listed
      obtain ⟨info, member, named, same⟩ := listed
      cases hit : infos.find? (·.index == index) with
      | none => exact absurd same (by simpa using List.find?_eq_none.mp hit info member)
      | some other =>
          have same' : other.index = index := by simpa using List.find?_some hit
          have one := List.inj_on_of_nodup_map indices (List.mem_of_find?_eq_some hit) member (same'.trans same.symm)
          exact ⟨other, rfl, one.symm ▸ named⟩
  rw [bearer, called]

/-- Two cards, the first with a function. -/
def cardInfos (first second : Name) : List LinkInfo :=
  [{ index := 2, name := first, parentDev := some "0000:01:00.0" },
    { index := 6, name := second, parentDev := some "0000:02:00.0" },
    { index := 3, name := "eth0v0", parentDev := some "0000:01:10.0" }]

def cardDevices (index : Index) : Device where
  driver := some (if index = 6 then "igb" else "ixgbe")
  physfn := if index = 3 then some [2] else none
  own := if index = 3 then some "0000:01:10.0" else none
  entries := if index = 3 then some ["virtfn0".toList] else none
  target _ := some "0000:01:10.0"

def Scene.rename (scene : Scene) (index : Index) (name : Name) : Scene where
  called := Function.update scene.called index (some name)
  borne other bearer := scene.borne other bearer ∨ (bearer = index ∧ some name = some other)

def firstScene : Scene where
  called := calledOf (cardInfos "eth0" "eth1")
  borne name index := calledOf (cardInfos "eth0" "eth1") index = some name

/-- The first card is renamed, and the second takes over its name. -/
def swappedScene : Scene := (firstScene.rename 2 "nic1").rename 6 "eth0"

/-- One reading of a host that stays as it is. -/
def readStill (infos : List LinkInfo) (facts : Facts) : Picture × Facts :=
  ((fromLinks infos facts).replay (fun _ request => (still cardDevices infos request, ())) ()).1

theorem readStill_runs {infos : List LinkInfo} (called : scene.called = calledOf infos)
    (names : (infos.map (·.name)).Nodup) (indices : (infos.map (·.index)).Nodup) (facts : Facts) :
    Runs (moving cardDevices) (fromLinks infos) facts scene (readStill infos facts).1
      (readStill infos facts).2 scene := by
  have path : (fromLinks infos facts).Reaches
      (.handled fun _ request => (still cardDevices infos request, ())) ()
      (.done (readStill infos facts)) () := Program.replay_reaches (fun _ _ => rfl) _ ()
  refine path.viewed (fun _ => scene) fun _ request reply _ answered => ?_
  obtain rfl := (Prod.mk.inj answered).1
  exact still_answers called (bearers_of_distinct names indices) request

def firstReading : Picture × Facts := readStill (cardInfos "eth0" "eth1") fun _ => none

def swappedReading : Picture × Facts := readStill (cardInfos "nic1" "eth0") firstReading.2

theorem firstScene_sound : firstScene.Sound where
  alone {first second name} left right := by
    have bearers := bearers_of_distinct (by decide : ((cardInfos "eth0" "eth1").map (·.name)).Nodup) (by decide)
    exact Option.some.inj (((bearers name first).mpr left).symm.trans ((bearers name second).mpr right))
  borne called := called

theorem rename_later (unborne : ¬ scene.borne name index) (free : ∀ other, scene.called other ≠ some name) :
    scene.Later (scene.rename index name) := by
  refine .single ⟨index, some name, fun taken same => ?_, rfl, fun _ _ => Iff.rfl⟩
  obtain rfl := Option.some.inj same
  exact ⟨unborne, free⟩

theorem swapped_later : firstScene.Later swappedScene := by
  have bearers (name : Name) (index : Index) : bearerOf (cardInfos "eth0" "eth1") name = some index ↔
      firstScene.called index = some name := bearers_of_distinct (by decide) (by decide) name index
  have unused (index : Index) : firstScene.called index ≠ some "nic1" := by
    intro called
    cases (bearers "nic1" index).mpr called
  have unborne : ¬ firstScene.borne "nic1" 2 := unused 2
  have unborne' : ¬ (firstScene.rename 2 "nic1").borne "eth0" 6 := by
    intro borne
    rcases borne with before | other
    · have called : calledOf (cardInfos "eth0" "eth1") 6 = some "eth0" := before
      exact absurd called (by decide)
    · exact absurd other.1 (by decide)
  refine Scene.Later.trans (rename_later unborne unused) (rename_later unborne' fun other called => ?_)
  · change Function.update firstScene.called 2 (some "nic1") other = some "eth0" at called
    by_cases here : other = 2
    · subst here
      exact absurd called (by decide)
    · rw [Function.update_of_ne here] at called
      have bears := (bearers "eth0" other).mpr called
      exact here (Option.some.inj (bears.symm.trans (by decide)))

theorem swapped_called : swappedScene.called = calledOf (cardInfos "nic1" "eth0") := by
  funext index
  change Function.update (Function.update firstScene.called 2 (some "nic1")) 6 (some "eth0") index = _
  by_cases six : index = 6
  · subst six
    decide
  · by_cases two : index = 2
    · subst two
      decide
    · rw [Function.update_of_ne six, Function.update_of_ne two]
      simp [firstScene, calledOf, cardInfos, List.find?_cons, Ne.symm six, Ne.symm two]

end Examples

end SriovMacSync.Sysfs
