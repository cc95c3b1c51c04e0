import Mathlib.Data.List.Nodup
import TriMesh.MeshSpec.Codec
import TriMesh.Store.Config

/-! # What is written is read back

The written forms of specifications, extrusions, formats and options, read again.

* **Scalars.** A scalar that is not finite is written as no value and cannot be read, all others read back as
  they were.  So what a record gives back is the record if all of its scalars are finite, and nothing
  otherwise (`ifFinite`), and this is kept when records are read field by field (`bind_ifFinite`).
* **Members.** The members of an object with distinct names are found by their names (`Json.fields?_object`).
  No generator has a field named like the tag, so the tag is found and the fields are what remains
  (`Json.untag?_object`).
* **Nesting.** No written form nests deeper than the paths of an extrusion do
  (`MeshSpec.isPlain_toJson`). -/

namespace TriMesh

/-! ### Readings of finite scalars -/

section readings
variable {β γ : Type} {xs ys : List Float} {a : β} {b : γ}

/-- A value that stands for some scalars, if all of these are finite. -/
def ifFinite (xs : List Float) (a : β) : Option β := if xs.all Float.isFinite then some a else none

theorem ifFinite_nil (a : β) : ifFinite [] a = some a := rfl

/-- One reading after the other needs the scalars of both. -/
theorem bind_ifFinite {read : Option β} {next : β → Option γ} (hread : read = ifFinite xs a)
    (hnext : next a = ifFinite ys b) : (read >>= next) = ifFinite (xs ++ ys) b := by
  rw [hread]
  unfold ifFinite at hnext ⊢
  rw [List.all_append]
  cases xs.all Float.isFinite with
  | true => exact hnext
  | false => rfl

theorem map_ifFinite {read : Option β} (f : β → γ) (hread : read = ifFinite xs a) :
    read.map f = ifFinite xs (f a) := by
  rw [hread]
  exact apply_ite (Option.map f) _ _ _

/-- Items read one by one. -/
theorem mapM_ifFinite {write : β → Json} {read : Json → Option β} {scalars : β → List Float}
    (h : ∀ a, read (write a) = ifFinite (scalars a) a) (as : List β) :
    (as.map write).mapM read = ifFinite (as.flatMap scalars) as := by
  induction as with
  | nil => rfl
  | cons a as ih =>
      rw [List.map_cons, List.mapM_cons, List.flatMap_cons]
      have htail : (do return a :: (← (as.map write).mapM read)) = ifFinite (as.flatMap scalars ++ []) (a :: as) :=
        bind_ifFinite ih rfl
      rw [List.append_nil] at htail
      exact bind_ifFinite (h a) htail

end readings

/-! ### Values -/

/-- The scalars of a vector of the plane. -/
def Vec2.scalars (v : Vec2 Float) : List Float := [v.x, v.y]

/-- The scalars of a vector of space. -/
def Vec3.scalars (v : Vec3 Float) : List Float := [v.x, v.y, v.z]

namespace Json

theorem real?_ofReal (x : Float) : (ofReal x).real? = ifFinite [x] x := by
  unfold ofReal ifFinite
  cases hx : x.isFinite with
  | true => simp only [if_true, real?, hx, List.all_cons, List.all_nil, Bool.and_true]
  | false => simp only [Bool.false_eq_true, if_false, real?, hx, List.all_cons, Bool.false_and]

theorem word?_ofWord (n : UInt32) : (ofWord n).word? = ifFinite [] n := by
  have hsize : n.toNat < UInt32.size := n.toNat_lt
  have hword : n.toNat.toUInt32 = n := UInt32.ofNat_toNat
  rw [ifFinite_nil, ofWord, word?, if_pos hsize, hword]

theorem vec2?_ofVec2 (v : Vec2 Float) : (ofVec2 v).vec2? = ifFinite v.scalars v :=
  bind_ifFinite (real?_ofReal _) (bind_ifFinite (real?_ofReal _) rfl)

theorem vec3?_ofVec3 (v : Vec3 Float) : (ofVec3 v).vec3? = ifFinite v.scalars v :=
  bind_ifFinite (real?_ofReal _) (bind_ifFinite (real?_ofReal _) (bind_ifFinite (real?_ofReal _) rfl))

theorem words?_ofWords (m n : UInt32) : words? (.array [ofWord m, ofWord n]) = ifFinite [] (m, n) :=
  bind_ifFinite (word?_ofWord _) (bind_ifFinite (word?_ofWord _) rfl)

theorem paths?_ofPaths (paths : List (Path Float)) :
    (ofPaths paths).paths? = ifFinite (paths.flatMap fun path => path.flatMap Vec2.scalars) paths :=
  mapM_ifFinite (mapM_ifFinite vec2?_ofVec2) paths

/-! ### Members -/

section members
variable {members : List (String × Json)} {m : String × Json} {name kind : String}

theorem filter_eq_nil_of_notMem (hname : name ∉ members.map Prod.fst) :
    members.filter (fun m => m.1 == name) = [] := by
  rw [List.filter_eq_nil_iff]
  intro m hm heq
  rw [← eq_of_beq heq] at hname
  exact hname (List.mem_map_of_mem hm)

/-- A name leads to one member only if no two members share a name. -/
theorem filter_eq_singleton (hnodup : (members.map Prod.fst).Nodup) (hm : m ∈ members) :
    members.filter (fun n => n.1 == m.1) = [m] := by
  induction members with
  | nil => cases hm
  | cons n ns ih =>
      rw [List.map_cons, List.nodup_cons] at hnodup
      obtain ⟨hfirst, hrest⟩ := hnodup
      rw [List.filter_cons]
      rcases List.mem_cons.mp hm with rfl | hm
      · rw [if_pos (beq_self_eq_true _), filter_eq_nil_of_notMem hfirst]
      · have hne : n.1 ≠ m.1 := fun heq => hfirst (heq ▸ List.mem_map_of_mem hm)
        rw [if_neg (mt eq_of_beq hne), ih hrest hm]

theorem mapM_only?_eq_some {found : List (String × Json)} (h : ∀ m ∈ found, only? members m.1 = some m.2) :
    (found.map Prod.fst).mapM (only? members) = some (found.map Prod.snd) := by
  induction found with
  | nil => rfl
  | cons m found ih =>
      obtain ⟨hm, hrest⟩ := List.forall_mem_cons.mp h
      rw [List.map_cons, List.mapM_cons, hm, ih hrest]
      rfl

/-- The fields of a record are found by their names. -/
theorem fields?_object (hnodup : (members.map Prod.fst).Nodup) :
    fields? (members.map Prod.fst) (.object members) = some (members.map Prod.snd) := by
  refine mapM_only?_eq_some fun m hm => ?_
  rw [only?, filter_eq_singleton hnodup hm]

/-- A tag in front of fields with other names is found, and the fields are what remains. -/
theorem untag?_object (htag : "type" ∉ members.map Prod.fst) :
    MeshSpec.untag? (.object (("type", .string kind) :: members)) = some (kind, .object members) := by
  have honly : only? (("type", .string kind) :: members) "type" = some (.string kind) := by
    rw [only?, List.filter_cons, if_pos (beq_self_eq_true _), filter_eq_nil_of_notMem htag]
  have hrest : (("type", .string kind) :: members).filter (fun m => m.1 != "type") = members := by
    rw [List.filter_cons, if_neg (by simp), List.filter_eq_self]
    intro m hm
    exact bne_iff_ne.mpr fun heq => htag (heq ▸ List.mem_map_of_mem hm)
  rw [MeshSpec.untag?, honly, hrest]
  rfl

end members

/-! ### Nesting -/

theorem isPlain_ofReal (x : Float) (depth : Nat) : (ofReal x).isPlain depth = true := by
  unfold ofReal
  split
  case isTrue hx => simpa only [isPlain] using hx
  case isFalse => simp only [isPlain]

theorem isPlain_ofWord (n : UInt32) (depth : Nat) : (ofWord n).isPlain depth = true := by
  simp only [ofWord, isPlain]

theorem isPlain_array {items : List Json} {depth : Nat} (h : ∀ v ∈ items, v.isPlain depth = true) :
    (array items).isPlain (depth + 1) = true := by
  rw [isPlain, List.all_eq_true]
  exact h

theorem isPlain_ofVec2 (v : Vec2 Float) (depth : Nat) : (ofVec2 v).isPlain (depth + 1) = true := by
  refine isPlain_array ?_
  simp only [List.forall_mem_cons, isPlain_ofReal, List.not_mem_nil, false_imp_iff, implies_true, and_self]

theorem isPlain_ofVec3 (v : Vec3 Float) (depth : Nat) : (ofVec3 v).isPlain (depth + 1) = true := by
  refine isPlain_array ?_
  simp only [List.forall_mem_cons, isPlain_ofReal, List.not_mem_nil, false_imp_iff, implies_true, and_self]

theorem isPlain_ofPaths (paths : List (Path Float)) (depth : Nat) : (ofPaths paths).isPlain (depth + 3) = true := by
  refine isPlain_array (List.forall_mem_map.mpr fun path _ => ?_)
  exact isPlain_array (List.forall_mem_map.mpr fun v _ => isPlain_ofVec2 v depth)

end Json

/-! ### Specifications -/

/-- The scalars of an extrusion. -/
def Extrusion.scalars (e : Extrusion Float) : List Float :=
  e.paths.flatMap (fun path => path.flatMap Vec2.scalars) ++ [e.height]

namespace MeshSpec

/-- The scalars of the generator's parameters. -/
def scalars : MeshSpec Float → List Float
  | .plane p => p.normal.scalars ++ p.offset :: (p.size.scalars ++ p.uvTile.scalars)
  | .box b => b.sides.scalars ++ b.uv.scalars
  | .camera c => [c.scale]
  | .sphere s => [s.radius]
  | .cylinder c => [c.radius, c.height]
  | .cone c => [c.radius, c.height]
  | .tube t => [t.innerRadius, t.outerRadius, t.height, t.arc]
  | .extrudedPolyline e => e.scalars

variable (spec : MeshSpec Float)

/-- No two fields have one name, and none is named like the tag. -/
theorem nodup_names : ("type" :: spec.members.map Prod.fst).Nodup := by
  cases spec <;> simp [members, Extrusion.members]

/-- Paths are what nests deepest. -/
theorem isPlain_members (depth : Nat) : ∀ m ∈ spec.members, m.2.isPlain (depth + 3) = true := by
  cases spec <;>
    simp only [members, Extrusion.members, List.forall_mem_cons, List.not_mem_nil, false_imp_iff, implies_true,
      Json.isPlain_ofReal, Json.isPlain_ofWord, Json.isPlain_ofVec2, Json.isPlain_ofVec3, Json.isPlain_ofPaths,
      Json.isPlain, List.all_cons, List.all_nil, Bool.and_self, and_self]

theorem isPlain_toJson : spec.toJson.isPlain specDepth = true := by
  change (Json.object (("type", .string spec.kind) :: spec.members)).isPlain (123 + 3 + 1) = true
  rw [Json.isPlain, List.all_cons, Bool.and_eq_true, List.all_eq_true]
  exact ⟨by rw [Json.isPlain], spec.isPlain_members 123⟩

theorem bind_fields? {β : Type} {next : List Json → Option β} {r : Option β}
    (h : next (spec.members.map Prod.snd) = r) :
    (Json.fields? (spec.members.map Prod.fst) (.object spec.members) >>= next) = r := by
  rw [Json.fields?_object spec.nodup_names.of_cons]
  exact h

end MeshSpec

/-! ### Generators field by field -/

section generators

open Json MeshSpec

theorem Plane.ofJson?_members (p : Plane Float) :
    Plane.ofJson? (.object (plane p).members) = ifFinite (plane p).scalars p :=
  bind_fields? (plane p) <|
    bind_ifFinite (vec3?_ofVec3 p.normal) <|
    bind_ifFinite (real?_ofReal p.offset) <|
    bind_ifFinite (vec2?_ofVec2 p.size) <|
    bind_ifFinite (words?_ofWords p.segments.1 p.segments.2) <|
    bind_ifFinite (vec2?_ofVec2 p.uvTile) rfl

theorem Box.ofJson?_members (b : Box Float) : Box.ofJson? (.object (box b).members) = ifFinite (box b).scalars b :=
  bind_fields? (box b) <|
    bind_ifFinite (vec3?_ofVec3 b.sides) <|
    bind_ifFinite (vec2?_ofVec2 b.uv) rfl

theorem Camera.ofJson?_members (c : Camera Float) :
    Camera.ofJson? (.object (camera c).members) = ifFinite (camera c).scalars c :=
  bind_fields? (camera c) <|
    bind_ifFinite (real?_ofReal c.scale) rfl

theorem Sphere.ofJson?_members (s : Sphere Float) :
    Sphere.ofJson? (.object (sphere s).members) = ifFinite (sphere s).scalars s :=
  bind_fields? (sphere s) <|
    bind_ifFinite (real?_ofReal s.radius) <|
    bind_ifFinite (word?_ofWord s.rings) <|
    bind_ifFinite (word?_ofWord s.segments) rfl

theorem Cylinder.ofJson?_members (c : Cylinder Float) :
    Cylinder.ofJson? (.object (cylinder c).members) = ifFinite (cylinder c).scalars c :=
  bind_fields? (cylinder c) <|
    bind_ifFinite (real?_ofReal c.radius) <|
    bind_ifFinite (real?_ofReal c.height) <|
    bind_ifFinite (word?_ofWord c.rings) <|
    bind_ifFinite (word?_ofWord c.segments) rfl

theorem Cone.ofJson?_members (c : Cone Float) :
    Cone.ofJson? (.object (cone c).members) = ifFinite (cone c).scalars c :=
  bind_fields? (cone c) <|
    bind_ifFinite (real?_ofReal c.radius) <|
    bind_ifFinite (real?_ofReal c.height) <|
    bind_ifFinite (word?_ofWord c.rings) <|
    bind_ifFinite (word?_ofWord c.segments) rfl

theorem Tube.ofJson?_members (t : Tube Float) :
    Tube.ofJson? (.object (tube t).members) = ifFinite (tube t).scalars t :=
  bind_fields? (tube t) <|
    bind_ifFinite (real?_ofReal t.innerRadius) <|
    bind_ifFinite (real?_ofReal t.outerRadius) <|
    bind_ifFinite (real?_ofReal t.height) <|
    bind_ifFinite (word?_ofWord t.rings) <|
    bind_ifFinite (word?_ofWord t.segments) <|
    bind_ifFinite (real?_ofReal t.arc) rfl

theorem Extrusion.ofJson?_members (e : Extrusion Float) :
    Extrusion.ofJson? (.object e.members) = ifFinite e.scalars e :=
  bind_fields? (extrudedPolyline e) <|
    bind_ifFinite (paths?_ofPaths e.paths) <|
    bind_ifFinite (real?_ofReal e.height) rfl

/-- The generator's name leads to its own fields. -/
theorem MeshSpec.ofParameters?_members (spec : MeshSpec Float) :
    ofParameters? spec.kind (.object spec.members) = ifFinite spec.scalars spec := by
  cases spec with
  | plane p => exact map_ifFinite _ p.ofJson?_members
  | box b => exact map_ifFinite _ b.ofJson?_members
  | camera c => exact map_ifFinite _ c.ofJson?_members
  | sphere s => exact map_ifFinite _ s.ofJson?_members
  | cylinder c => exact map_ifFinite _ c.ofJson?_members
  | cone c => exact map_ifFinite _ c.ofJson?_members
  | tube t => exact map_ifFinite _ t.ofJson?_members
  | extrudedPolyline e => exact map_ifFinite _ e.ofJson?_members

theorem MeshSpec.ofJson?_toJson (spec : MeshSpec Float) : ofJson? spec.toJson = ifFinite spec.scalars spec := by
  have htag : "type" ∉ spec.members.map Prod.fst := (List.nodup_cons.mp spec.nodup_names).1
  have huntag : untag? spec.toJson = some (spec.kind, .object spec.members) := untag?_object htag
  rw [ofJson?, if_pos spec.isPlain_toJson, huntag, Option.bind_some]
  exact spec.ofParameters?_members

theorem Format.ofJson?_toJson (f : Format) : Format.ofJson? f.toJson = some f := by
  cases f <;> rfl

theorem StoreConfig.ofJson?_toJson (c : StoreConfig) : StoreConfig.ofJson? c.toJson = some c := rfl

end generators

/-- A specification and an extrusion are read back from their written forms as they were if all of their scalars
are finite, and not at all otherwise.  A format and the options of a store are always read back. -/
theorem read_written :
    (∀ spec : MeshSpec Float, MeshSpec.ofJson? spec.toJson =
      if spec.scalars.all Float.isFinite then some spec else none) ∧
    (∀ e : Extrusion Float, Extrusion.ofJson? e.toJson =
      if e.scalars.all Float.isFinite then some e else none) ∧
    (∀ f : Format, Format.ofJson? f.toJson = some f) ∧
    ∀ c : StoreConfig, StoreConfig.ofJson? c.toJson = some c :=
  ⟨MeshSpec.ofJson?_toJson, Extrusion.ofJson?_members, Format.ofJson?_toJson, StoreConfig.ofJson?_toJson⟩

-- an infinite scalar is written, too, but not read back
example : MeshSpec.ofJson? (MeshSpec.camera ⟨1 / 0⟩).toJson = none := by rfl

end TriMesh
