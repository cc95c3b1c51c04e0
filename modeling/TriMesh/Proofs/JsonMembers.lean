import Mathlib.Tactic
import TriMesh.MeshSpec.Codec

/-! # Objects that are specifications

Which objects can be read as specifications, and which of their members matter.

* **Shapes.** A reader of scalars, counts, vectors or paths accepts the plain values of one shape (`Shape.Fits`) and
  no other ones (`Reads`).
* **Records.** A record is read if each of its fields is there exactly once with a value of its shape
  (`HasFields`), whatever the other members are (`isSome_record_iff`).
* **Specifications.** The tag chooses the fields from one table (`MeshSpec.generators`).  All members are taken up
  before the tag is known, so a garbled text spoils the object wherever it stands; in a plain object the members
  that are neither the tag nor a field do not matter. -/

namespace TriMesh

/-! ### Plain values -/

namespace Json

/-- The value is plain if it may nest deep enough. -/
def Plain (v : Json) : Prop := ∃ depth, v.isPlain depth = true

theorem Plain.item {items : List Json} (h : (array items).Plain) : ∀ v ∈ items, v.Plain := by
  obtain ⟨depth, h⟩ := h
  cases depth with
  | zero => simp [isPlain] at h
  | succ depth =>
      rw [isPlain, List.all_eq_true] at h
      exact fun v hv => ⟨depth, h v hv⟩

theorem Plain.member {members : List (String × Json)} (h : (object members).Plain) : ∀ m ∈ members, m.2.Plain := by
  obtain ⟨depth, h⟩ := h
  cases depth with
  | zero => simp [isPlain] at h
  | succ depth =>
      rw [isPlain, List.all_eq_true] at h
      exact fun m hm => ⟨depth, h m hm⟩

end Json

/-! ### Shapes -/

/-- The kind of value that a field takes. -/
inductive Shape where
  /-- Any number. -/
  | scalar
  /-- A natural number literal that fits into 32 bits. -/
  | count
  /-- An array of two values. -/
  | pair (item : Shape)
  /-- An array of three values. -/
  | triple (item : Shape)
  /-- An array of any length. -/
  | list (item : Shape)
deriving DecidableEq, Repr

/-- The value has the shape. -/
inductive Shape.Fits : Shape → Json → Prop where
  | scalar (n : JsonNumber) : Fits .scalar (.number n)
  | count {n : Nat} : n ≤ 4294967295 → Fits .count (.number (.natural n))
  | pair {item : Shape} {x y : Json} : item.Fits x → item.Fits y → Fits (.pair item) (.array [x, y])
  | triple {item : Shape} {x y z : Json} :
      item.Fits x → item.Fits y → item.Fits z → Fits (.triple item) (.array [x, y, z])
  | list {item : Shape} {items : List Json} : (∀ v ∈ items, item.Fits v) → Fits (.list item) (.array items)

/-- The reader accepts the values of a shape, and no other plain ones. -/
def Reads {β : Type} (read : Json → Option β) (shape : Shape) : Prop :=
  ∀ v : Json, v.Plain → ((read v).isSome ↔ shape.Fits v)

section readers
variable {β γ : Type} {read : Json → Option β} {next : β → Option γ} {item : Shape} {p q : Prop}

/-- One reading after another succeeds if both do. -/
theorem isSome_bind_iff {first : Option β} (hfirst : first.isSome ↔ p) (hnext : ∀ a, (next a).isSome ↔ q) :
    (first >>= next).isSome ↔ p ∧ q := by
  rw [← hfirst]
  cases first with
  | none => simp
  | some a => simpa using hnext a

theorem isSome_return_iff (a : γ) : (return a : Option γ).isSome ↔ True :=
  iff_of_true rfl trivial

theorem reads_real? : Reads Json.real? .scalar := by
  rintro v ⟨depth, hv⟩
  cases v with
  | number n =>
      refine iff_of_true ?_ (.scalar n)
      cases n with
      | natural | negative => rfl
      | real x =>
          rw [Json.isPlain] at hv
          rw [Json.real?, if_pos hv]
          rfl
  | _ => exact ⟨nofun, nofun⟩

theorem reads_word? : Reads Json.word? .count := by
  intro v _
  match v with
  | .number (.natural n) =>
      rw [Json.word?, Option.isSome_ite]
      exact ⟨fun hn => .count (Nat.le_of_lt_succ hn), fun | .count hn => Nat.lt_succ_of_le hn⟩
  | .number (.negative _) | .number (.real _) => exact ⟨nofun, nofun⟩
  | .null | .bool _ | .string _ | .garbled | .array _ | .object _ => exact ⟨nofun, nofun⟩

/-- Two values are read from an array of exactly two. -/
theorem reads_pair (h : Reads read item) {readPair : Json → Option γ} {build : β → β → γ}
    (harray : ∀ x y, readPair (.array [x, y]) = do return build (← read x) (← read y))
    (helse : ∀ v, (∀ x y, v ≠ .array [x, y]) → readPair v = none) : Reads readPair (.pair item) := by
  intro v hv
  by_cases hpair : ∃ x y, v = .array [x, y]
  · obtain ⟨x, y, rfl⟩ := hpair
    have hx : x.Plain := hv.item x (by simp)
    have hy : y.Plain := hv.item y (by simp)
    rw [harray, isSome_bind_iff (h x hx) fun _ => isSome_bind_iff (h y hy) fun _ => isSome_return_iff _]
    exact ⟨fun hfits => .pair hfits.1 hfits.2.1, fun | .pair hx hy => ⟨hx, hy, trivial⟩⟩
  · rw [helse v fun x y heq => hpair ⟨x, y, heq⟩]
    exact ⟨nofun, fun | .pair _ _ => absurd ⟨_, _, rfl⟩ hpair⟩

theorem reads_vec2? : Reads Json.vec2? (.pair .scalar) := by
  refine reads_pair reads_real? (fun _ _ => rfl) fun v hv => ?_
  unfold Json.vec2?
  split
  · exact absurd rfl (hv _ _)
  · rfl

theorem reads_words? : Reads Json.words? (.pair .count) := by
  refine reads_pair reads_word? (fun _ _ => rfl) fun v hv => ?_
  unfold Json.words?
  split
  · exact absurd rfl (hv _ _)
  · rfl

theorem reads_vec3? : Reads Json.vec3? (.triple .scalar) := by
  intro v hv
  unfold Json.vec3?
  split
  case h_1 x y z =>
      have hx : x.Plain := hv.item x (by simp)
      have hy : y.Plain := hv.item y (by simp)
      have hz : z.Plain := hv.item z (by simp)
      rw [isSome_bind_iff (reads_real? x hx) fun _ => isSome_bind_iff (reads_real? y hy) fun _ =>
        isSome_bind_iff (reads_real? z hz) fun _ => isSome_return_iff _]
      exact ⟨fun hfits => .triple hfits.1 hfits.2.1 hfits.2.2.1, fun | .triple hx hy hz => ⟨hx, hy, hz, trivial⟩⟩
  case h_2 helse => exact ⟨nofun, fun | .triple _ _ _ => absurd rfl (helse _ _ _)⟩

/-- What is read one by one is read if each part is. -/
theorem isSome_mapM_iff {α : Type} {f : α → Option β} {p : α → Prop} {xs : List α}
    (h : ∀ x ∈ xs, ((f x).isSome ↔ p x)) : (xs.mapM f).isSome ↔ ∀ x ∈ xs, p x := by
  induction xs with
  | nil => simp
  | cons x xs ih =>
      obtain ⟨hx, hxs⟩ := List.forall_mem_cons.mp h
      rw [List.mapM_cons, List.forall_mem_cons]
      refine isSome_bind_iff hx fun _ => ?_
      rw [isSome_bind_iff (ih hxs) fun _ => isSome_return_iff _, and_true]

theorem reads_listOf? (h : Reads read item) : Reads (Json.listOf? read) (.list item) := by
  intro v hv
  match v with
  | .array items =>
      rw [Json.listOf?, isSome_mapM_iff fun v hmem => h v (hv.item v hmem)]
      exact ⟨.list, fun | .list hitems => hitems⟩
  | .null | .bool _ | .number _ | .string _ | .garbled | .object _ => exact ⟨nofun, nofun⟩

theorem reads_paths? : Reads Json.paths? (.list (.list (.pair .scalar))) :=
  reads_listOf? (reads_listOf? reads_vec2?)

end readers

/-! ### Members by name -/

/-- The members with a name are one, with the given value. -/
def HasOnly (members : List (String × Json)) (name : String) (v : Json) : Prop :=
  members.filter (fun m => m.1 == name) = [(name, v)]

/-- Every field is there exactly once, with a value of its shape. -/
def HasFields (members : List (String × Json)) (fields : List (String × Shape)) : Prop :=
  ∀ f ∈ fields, ∃ v, HasOnly members f.1 v ∧ f.2.Fits v

section members
variable {members others : List (String × Json)} {name : String} {v : Json}

theorem HasOnly.mem (h : HasOnly members name v) : (name, v) ∈ members := by
  have hmem : (name, v) ∈ members.filter fun m => m.1 == name := h ▸ List.mem_singleton_self _
  exact List.mem_of_mem_filter hmem

theorem only?_eq_some_iff : Json.only? members name = some v ↔ HasOnly members name v := by
  unfold Json.only? HasOnly
  constructor
  · intro h
    split at h
    case h_1 m hm =>
        have hname : m.1 = name := by
          have hmem : m ∈ members.filter fun m => m.1 == name := hm ▸ List.mem_singleton_self m
          exact eq_of_beq (List.mem_filter.mp hmem).2
        rw [hm, ← hname, ← Option.some.inj h]
    case h_2 => cases h
  · intro h
    rw [h]

theorem only?_congr (h : members.filter (fun m => m.1 == name) = others.filter fun m => m.1 == name) :
    Json.only? members name = Json.only? others name := by
  rw [Json.only?, Json.only?, h]

/-- The order of the members does not matter: only a single one counts. -/
theorem only?_of_perm (h : members.Perm others) : Json.only? members name = Json.only? others name := by
  have hfilter := h.filter fun m => m.1 == name
  ext v
  simp only [only?_eq_some_iff, HasOnly]
  exact ⟨fun hv => List.perm_singleton.mp (hv ▸ hfilter.symm), fun hv => List.perm_singleton.mp (hv ▸ hfilter)⟩

/-- Without the tag the other members are found as before. -/
theorem only?_untagged (h : name ≠ "type") :
    Json.only? (members.filter fun m => m.1 != "type") name = Json.only? members name := by
  refine only?_congr ?_
  rw [List.filter_filter]
  refine List.filter_congr fun m _ => ?_
  rw [Bool.and_eq_left_iff_imp]
  intro hm
  exact bne_iff_ne.mpr (eq_of_beq hm ▸ h)

end members

/-! ### Records -/

section records
variable {β : Type} {members others : List (String × Json)} {f : String × Shape} {fields : List (String × Shape)}
  {v : Json} {vs values : List Json} {next : List Json → Option β}

/-- The values have the shapes of the fields. -/
def AllFit (fields : List (String × Shape)) (values : List Json) : Prop :=
  List.Forall₂ (fun f v => f.2.Fits v) fields values

/-- A field is read before the others. -/
theorem isSome_bind_field {γ : Type} {read : Json → Option β} {next : β → Option γ} (hread : Reads read f.2)
    (hv : v.Plain) (hnext : ∀ a, (next a).isSome ↔ AllFit fields vs) :
    (read v >>= next).isSome ↔ AllFit (f :: fields) (v :: vs) := by
  rw [isSome_bind_iff (hread v hv) hnext, AllFit, AllFit, List.forall₂_cons]

/-- Nothing is left to be read. -/
theorem isSome_no_field (a : β) : (some a).isSome ↔ AllFit [] [] :=
  iff_of_true rfl .nil

/-- The values of fields that are all there. -/
theorem allFit_iff (h : List.Forall₂ (fun f v => HasOnly members f.1 v) fields values) :
    AllFit fields values ↔ HasFields members fields := by
  induction h with
  | nil => exact iff_of_true .nil (List.forall_mem_nil _)
  | @cons f v fields values hv _ ih =>
      rw [AllFit, List.forall₂_cons, HasFields, List.forall_mem_cons]
      refine and_congr ⟨fun hfits => ⟨v, hv, hfits⟩, ?_⟩ ih
      rintro ⟨w, hw, hfits⟩
      obtain rfl : w = v := Option.some.inj ((only?_eq_some_iff.mpr hw).symm.trans (only?_eq_some_iff.mpr hv))
      exact hfits

/-- The values found are those of the fields in their order. -/
theorem forall₂_of_fields? (h : Json.fields? (fields.map Prod.fst) (.object members) = some values) :
    List.Forall₂ (fun f v => HasOnly members f.1 v) fields values := by
  rw [Json.fields?] at h
  induction fields generalizing values with
  | nil =>
      obtain rfl : [] = values := Option.some.inj h
      exact .nil
  | cons f fields ih =>
      rw [List.map_cons, List.mapM_cons] at h
      obtain ⟨v, hv, h⟩ := Option.bind_eq_some_iff.mp h
      obtain ⟨vs, hvs, h⟩ := Option.bind_eq_some_iff.mp h
      obtain rfl : v :: vs = values := Option.some.inj h
      exact .cons (only?_eq_some_iff.mp hv) (ih hvs)

/-- **A record is read from its fields.**  The reader of the values is only asked about values for all the fields. -/
theorem isSome_record_iff (fields : List (String × Shape)) (hmembers : ∀ m ∈ members, m.2.Plain)
    (hnext : ∀ values, List.Forall₂ (fun _ v => v.Plain) fields values → ((next values).isSome ↔ AllFit fields values)) :
    (Json.fields? (fields.map Prod.fst) (.object members) >>= next).isSome ↔ HasFields members fields := by
  cases hfound : Json.fields? (fields.map Prod.fst) (.object members) with
  | some values =>
      have hvalues := forall₂_of_fields? hfound
      rw [← allFit_iff hvalues]
      exact hnext values (hvalues.imp fun f v hv => hmembers _ hv.mem)
  | none =>
      refine iff_of_false nofun fun hfields => ?_
      have hsome : (Json.fields? (fields.map Prod.fst) (.object members)).isSome := by
        rw [Json.fields?, isSome_mapM_iff fun name _ => Iff.rfl]
        rintro name hname
        obtain ⟨f, hf, rfl⟩ := List.mem_map.mp hname
        obtain ⟨v, hv, -⟩ := hfields f hf
        exact Option.isSome_iff_exists.mpr ⟨v, only?_eq_some_iff.mpr hv⟩
      rw [hfound] at hsome
      cases hsome

theorem mapM_only?_congr (h : ∀ f ∈ fields, Json.only? members f.1 = Json.only? others f.1) :
    (fields.map Prod.fst).mapM (Json.only? members) = (fields.map Prod.fst).mapM (Json.only? others) := by
  induction fields with
  | nil => rfl
  | cons f fields ih =>
      obtain ⟨hf, hfields⟩ := List.forall_mem_cons.mp h
      rw [List.map_cons, List.mapM_cons, List.mapM_cons, hf, ih hfields]

/-- A record depends on its fields only. -/
theorem record_congr {read : Json → Option β} (hread : ∀ v, read v = (Json.fields? (fields.map Prod.fst) v >>= next))
    (h : ∀ f ∈ fields, Json.only? members f.1 = Json.only? others f.1) :
    read (.object members) = read (.object others) := by
  rw [hread, hread, Json.fields?, Json.fields?, mapM_only?_congr h]

end records

/-! ### Generators -/

/-- The fields of a plane. -/
def Plane.fields : List (String × Shape) :=
  [("normal", .triple .scalar), ("offset", .scalar), ("size", .pair .scalar), ("segments", .pair .count),
    ("uv_tile", .pair .scalar)]

/-- The fields of a box. -/
def Box.fields : List (String × Shape) := [("sides", .triple .scalar), ("uv", .pair .scalar)]

/-- The field of a camera box. -/
def Camera.fields : List (String × Shape) := [("scale", .scalar)]

/-- The fields of a sphere. -/
def Sphere.fields : List (String × Shape) := [("radius", .scalar), ("rings", .count), ("segments", .count)]

/-- The fields of a cylinder. -/
def Cylinder.fields : List (String × Shape) :=
  [("radius", .scalar), ("height", .scalar), ("rings", .count), ("segments", .count)]

/-- The fields of a cone. -/
def Cone.fields : List (String × Shape) := Cylinder.fields

/-- The fields of a tube. -/
def Tube.fields : List (String × Shape) :=
  [("inner_radius", .scalar), ("outer_radius", .scalar), ("height", .scalar), ("rings", .count), ("segments", .count),
    ("arc", .scalar)]

/-- The fields of an extrusion. -/
def Extrusion.fields : List (String × Shape) := [("paths", .list (.list (.pair .scalar))), ("height", .scalar)]

/-- The names of the generators, each with the fields of its parameters. -/
def MeshSpec.generators : List (String × List (String × Shape)) :=
  [("plane", Plane.fields), ("box", Box.fields), ("camera", Camera.fields), ("sphere", Sphere.fields),
    ("cylinder", Cylinder.fields), ("cone", Cone.fields), ("tube", Tube.fields),
    ("extruded_polyline", Extrusion.fields)]

/-- The fields of the generator's parameters. -/
def MeshSpec.fields : MeshSpec Float → List (String × Shape)
  | .plane _ => Plane.fields
  | .box _ => Box.fields
  | .camera _ => Camera.fields
  | .sphere _ => Sphere.fields
  | .cylinder _ => Cylinder.fields
  | .cone _ => Cone.fields
  | .tube _ => Tube.fields
  | .extrudedPolyline _ => Extrusion.fields

section generators
variable {members others : List (String × Json)}

theorem Plane.isSome_ofJson?_iff (h : ∀ m ∈ members, m.2.Plain) :
    (Plane.ofJson? (.object members)).isSome ↔ HasFields members Plane.fields :=
  -- as many values are found as there are fields, so the reader's own pattern applies
  isSome_record_iff Plane.fields h fun
    | _, .cons normal (.cons offset (.cons size (.cons segments (.cons uvTile .nil)))) =>
      isSome_bind_field reads_vec3? normal fun _ =>
      isSome_bind_field reads_real? offset fun _ =>
      isSome_bind_field reads_vec2? size fun _ =>
      isSome_bind_field reads_words? segments fun _ =>
      isSome_bind_field reads_vec2? uvTile fun _ => isSome_no_field _

theorem Box.isSome_ofJson?_iff (h : ∀ m ∈ members, m.2.Plain) :
    (Box.ofJson? (.object members)).isSome ↔ HasFields members Box.fields :=
  isSome_record_iff Box.fields h fun
    | _, .cons sides (.cons uv .nil) =>
      isSome_bind_field reads_vec3? sides fun _ =>
      isSome_bind_field reads_vec2? uv fun _ => isSome_no_field _

theorem Camera.isSome_ofJson?_iff (h : ∀ m ∈ members, m.2.Plain) :
    (Camera.ofJson? (.object members)).isSome ↔ HasFields members Camera.fields :=
  isSome_record_iff Camera.fields h fun
    | _, .cons scale .nil => isSome_bind_field reads_real? scale fun _ => isSome_no_field _

theorem Sphere.isSome_ofJson?_iff (h : ∀ m ∈ members, m.2.Plain) :
    (Sphere.ofJson? (.object members)).isSome ↔ HasFields members Sphere.fields :=
  isSome_record_iff Sphere.fields h fun
    | _, .cons radius (.cons rings (.cons segments .nil)) =>
      isSome_bind_field reads_real? radius fun _ =>
      isSome_bind_field reads_word? rings fun _ =>
      isSome_bind_field reads_word? segments fun _ => isSome_no_field _

theorem Cylinder.isSome_ofJson?_iff (h : ∀ m ∈ members, m.2.Plain) :
    (Cylinder.ofJson? (.object members)).isSome ↔ HasFields members Cylinder.fields :=
  isSome_record_iff Cylinder.fields h fun
    | _, .cons radius (.cons height (.cons rings (.cons segments .nil))) =>
      isSome_bind_field reads_real? radius fun _ =>
      isSome_bind_field reads_real? height fun _ =>
      isSome_bind_field reads_word? rings fun _ =>
      isSome_bind_field reads_word? segments fun _ => isSome_no_field _

theorem Cone.isSome_ofJson?_iff (h : ∀ m ∈ members, m.2.Plain) :
    (Cone.ofJson? (.object members)).isSome ↔ HasFields members Cone.fields :=
  isSome_record_iff Cone.fields h fun
    | _, .cons radius (.cons height (.cons rings (.cons segments .nil))) =>
      isSome_bind_field reads_real? radius fun _ =>
      isSome_bind_field reads_real? height fun _ =>
      isSome_bind_field reads_word? rings fun _ =>
      isSome_bind_field reads_word? segments fun _ => isSome_no_field _

theorem Tube.isSome_ofJson?_iff (h : ∀ m ∈ members, m.2.Plain) :
    (Tube.ofJson? (.object members)).isSome ↔ HasFields members Tube.fields :=
  isSome_record_iff Tube.fields h fun
    | _, .cons inner (.cons outer (.cons height (.cons rings (.cons segments (.cons arc .nil))))) =>
      isSome_bind_field reads_real? inner fun _ =>
      isSome_bind_field reads_real? outer fun _ =>
      isSome_bind_field reads_real? height fun _ =>
      isSome_bind_field reads_word? rings fun _ =>
      isSome_bind_field reads_word? segments fun _ =>
      isSome_bind_field reads_real? arc fun _ => isSome_no_field _

theorem Extrusion.isSome_ofJson?_iff (h : ∀ m ∈ members, m.2.Plain) :
    (Extrusion.ofJson? (.object members)).isSome ↔ HasFields members Extrusion.fields :=
  isSome_record_iff Extrusion.fields h fun
    | _, .cons paths (.cons height .nil) =>
      isSome_bind_field reads_paths? paths fun _ =>
      isSome_bind_field reads_real? height fun _ => isSome_no_field _

namespace MeshSpec

/-- The name of a generator leads to its own fields. -/
theorem isSome_ofParameters?_iff (h : ∀ m ∈ members, m.2.Plain) :
    ∀ g ∈ generators, ((ofParameters? g.1 (.object members)).isSome ↔ HasFields members g.2) := by
  simp only [generators, List.forall_mem_cons, List.not_mem_nil, false_imp_iff, implies_true, and_true]
  refine ⟨?_, ?_, ?_, ?_, ?_, ?_, ?_, ?_⟩ <;> refine (Iff.of_eq (congrArg (· = true) Option.isSome_map)).trans ?_
  · exact Plane.isSome_ofJson?_iff h
  · exact Box.isSome_ofJson?_iff h
  · exact Camera.isSome_ofJson?_iff h
  · exact Sphere.isSome_ofJson?_iff h
  · exact Cylinder.isSome_ofJson?_iff h
  · exact Cone.isSome_ofJson?_iff h
  · exact Tube.isSome_ofJson?_iff h
  · exact Extrusion.isSome_ofJson?_iff h

theorem kind_of_ofParameters? {kind : String} {v : Json} {spec : MeshSpec Float}
    (h : ofParameters? kind v = some spec) : spec.kind = kind := by
  unfold ofParameters? at h
  split at h
  case h_9 => cases h
  all_goals
    obtain ⟨_, -, rfl⟩ := Option.map_eq_some_iff.mp h
    rfl

theorem mem_generators (spec : MeshSpec Float) : (spec.kind, spec.fields) ∈ generators := by
  cases spec <;> simp only [kind, fields, generators, List.mem_cons, true_or, or_true]

/-- The parameters depend on the fields of the generator only. -/
theorem ofParameters?_congr :
    ∀ g ∈ generators, (∀ f ∈ g.2, Json.only? members f.1 = Json.only? others f.1) →
      ofParameters? g.1 (.object members) = ofParameters? g.1 (.object others) := by
  simp only [generators, List.forall_mem_cons, List.not_mem_nil, false_imp_iff, implies_true, and_true]
  refine ⟨fun h => ?_, fun h => ?_, fun h => ?_, fun h => ?_, fun h => ?_, fun h => ?_, fun h => ?_, fun h => ?_⟩
  · exact congrArg (Option.map plane) (record_congr (fun _ => rfl) h)
  · exact congrArg (Option.map box) (record_congr (fun _ => rfl) h)
  · exact congrArg (Option.map camera) (record_congr (fun _ => rfl) h)
  · exact congrArg (Option.map sphere) (record_congr (fun _ => rfl) h)
  · exact congrArg (Option.map cylinder) (record_congr (fun _ => rfl) h)
  · exact congrArg (Option.map cone) (record_congr (fun _ => rfl) h)
  · exact congrArg (Option.map tube) (record_congr (fun _ => rfl) h)
  · exact congrArg (Option.map extrudedPolyline) (record_congr (fun _ => rfl) h)

/-- No field is named like the tag. -/
theorem ne_type_of_mem_generators : ∀ g ∈ generators, ∀ f ∈ g.2, f.1 ≠ "type" := by
  decide

end MeshSpec

end generators

/-! ### Specifications -/

namespace MeshSpec

variable {members others : List (String × Json)} {spec : MeshSpec Float}

/-- A plain object is read by its tag; the tag may stay where it is when the fields are read. -/
theorem ofJson?_object_eq_some_iff (h : (Json.object members).isPlain specDepth = true) :
    ofJson? (.object members) = some spec ↔
      HasOnly members "type" (.string spec.kind) ∧ ofParameters? spec.kind (.object members) = some spec := by
  have huntagged : ofParameters? spec.kind (.object (members.filter fun m => m.1 != "type")) =
      ofParameters? spec.kind (.object members) :=
    ofParameters?_congr _ spec.mem_generators fun f hf =>
      only?_untagged (ne_type_of_mem_generators _ spec.mem_generators f hf)
  rw [ofJson?, if_pos h, ← huntagged, ← only?_eq_some_iff]
  constructor
  · intro hspec
    obtain ⟨⟨kind, v⟩, huntag, hparameters⟩ := Option.bind_eq_some_iff.mp hspec
    obtain ⟨tag, htag, huntag⟩ := Option.bind_eq_some_iff.mp huntag
    obtain ⟨text, htext, huntag⟩ := Option.bind_eq_some_iff.mp huntag
    obtain ⟨rfl, rfl⟩ := Prod.mk.inj (Option.some.inj huntag)
    obtain rfl : spec.kind = text := kind_of_ofParameters? hparameters
    match tag with
    | .string s =>
        obtain rfl : s = spec.kind := Option.some.inj htext
        exact ⟨htag, hparameters⟩
  · rintro ⟨htag, hparameters⟩
    rw [untag?, htag]
    exact hparameters

theorem exists_ofJson?_object_iff (h : (Json.object members).isPlain specDepth = true) :
    (∃ spec, ofJson? (.object members) = some spec) ↔
      ∃ kind fields, (kind, fields) ∈ generators ∧ HasOnly members "type" (.string kind) ∧ HasFields members fields := by
  have hmembers := Json.Plain.member ⟨specDepth, h⟩
  simp only [ofJson?_object_eq_some_iff h]
  constructor
  · rintro ⟨spec, htag, hspec⟩
    refine ⟨spec.kind, spec.fields, spec.mem_generators, htag, ?_⟩
    exact (isSome_ofParameters?_iff hmembers _ spec.mem_generators).mp (Option.isSome_iff_exists.mpr ⟨spec, hspec⟩)
  · rintro ⟨kind, fields, hkind, htag, hfields⟩
    obtain ⟨spec, hspec⟩ := Option.isSome_iff_exists.mp ((isSome_ofParameters?_iff hmembers _ hkind).mpr hfields)
    obtain rfl : spec.kind = kind := kind_of_ofParameters? hspec
    exact ⟨spec, htag, hspec⟩

theorem hasFields_of_ofJson? (h : (Json.object members).isPlain specDepth = true)
    (hspec : ofJson? (.object members) = some spec) : HasFields members spec.fields := by
  obtain ⟨-, hparameters⟩ := (ofJson?_object_eq_some_iff h).mp hspec
  refine (isSome_ofParameters?_iff (Json.Plain.member ⟨specDepth, h⟩) _ spec.mem_generators).mp ?_
  exact Option.isSome_iff_exists.mpr ⟨spec, hparameters⟩

/-- Another object with the same tag and the same fields is read the same way. -/
theorem ofJson?_congr (h : (Json.object members).isPlain specDepth = true)
    (hspec : ofJson? (.object members) = some spec) (hothers : (Json.object others).isPlain specDepth = true)
    (hsame : ∀ name ∈ "type" :: spec.fields.map Prod.fst, ∀ v, HasOnly members name v → HasOnly others name v) :
    ofJson? (.object others) = some spec := by
  obtain ⟨htag, hparameters⟩ := (ofJson?_object_eq_some_iff h).mp hspec
  refine (ofJson?_object_eq_some_iff hothers).mpr ⟨hsame _ List.mem_cons_self _ htag, ?_⟩
  rw [← hparameters]
  refine ofParameters?_congr _ spec.mem_generators fun f hf => ?_
  obtain ⟨v, hv, -⟩ := hasFields_of_ofJson? h hspec f hf
  have hv' := hsame f.1 (List.mem_cons_of_mem _ (List.mem_map_of_mem hf)) v hv
  rw [only?_eq_some_iff.mpr hv, only?_eq_some_iff.mpr hv']

theorem ofJson?_of_perm (h : members.Perm others) : ofJson? (.object others) = ofJson? (.object members) := by
  have hplain : (Json.object others).isPlain specDepth = (Json.object members).isPlain specDepth := h.symm.all_eq
  by_cases hmembers : (Json.object members).isPlain specDepth = true
  · ext spec
    rw [ofJson?_object_eq_some_iff hmembers, ofJson?_object_eq_some_iff (hplain.trans hmembers),
      ← only?_eq_some_iff, ← only?_eq_some_iff, only?_of_perm h,
      ofParameters?_congr _ spec.mem_generators fun f _ => only?_of_perm h]
  · rw [ofJson?, ofJson?, if_neg hmembers, if_neg (hplain ▸ hmembers)]

/-- **A specification is read by the names of its members.**  A plain object can be read exactly when the tag is there
once, with the name of a generator, and each field of that generator once, with a value of its shape.  Other members
do not matter: an object with the same tag and fields is read the same way, and so is every other order of the
members. -/
theorem read_by_name :
    (∀ members : List (String × Json), (Json.object members).isPlain specDepth = true →
      ((∃ spec, ofJson? (.object members) = some spec) ↔
        ∃ kind fields, (kind, fields) ∈ generators ∧ HasOnly members "type" (.string kind) ∧
          HasFields members fields) ∧
      ∀ spec, ofJson? (.object members) = some spec →
        HasOnly members "type" (.string spec.kind) ∧ HasFields members spec.fields ∧
          ∀ others : List (String × Json), (Json.object others).isPlain specDepth = true →
            (∀ name ∈ "type" :: spec.fields.map Prod.fst, ∀ v, HasOnly members name v → HasOnly others name v) →
              ofJson? (.object others) = some spec) ∧
      ∀ members others : List (String × Json), members.Perm others →
        ofJson? (.object others) = ofJson? (.object members) := by
  refine ⟨fun members h => ⟨exists_ofJson?_object_iff h, fun spec hspec => ⟨?_, ?_, ?_⟩⟩, fun members others h => ?_⟩
  · exact ((ofJson?_object_eq_some_iff h).mp hspec).1
  · exact hasFields_of_ofJson? h hspec
  · exact fun others hothers hsame => ofJson?_congr h hspec hothers hsame
  · exact ofJson?_of_perm h

/-- A camera box with the tag behind its field, and with other members that repeat and name the field of a sphere. -/
theorem read_by_name_camera :
    let members : List (String × Json) :=
      [("scale", .number (.natural 2)), ("radius", .null), ("type", .string "camera"), ("radius", .string "2")]
    (Json.object members).isPlain specDepth = true ∧ HasOnly members "type" (.string "camera") ∧
      HasFields members Camera.fields ∧ ofJson? (.object members) = some (.camera ⟨2⟩) ∧
      ofJson? (.object [("type", .string "camera"), ("scale", .number (.natural 2))]) = some (.camera ⟨2⟩) ∧
      ofJson? (.object members.reverse) = some (.camera ⟨2⟩) := by
  intro members
  have hplain : (Json.object members).isPlain specDepth = true := by rfl
  have hspec : ofJson? (.object members) = some (.camera ⟨2⟩) := by rfl
  obtain ⟨hobjects, hperm⟩ := read_by_name
  obtain ⟨-, hread⟩ := hobjects members hplain
  obtain ⟨htag, hfields, hothers⟩ := hread _ hspec
  refine ⟨hplain, htag, hfields, hspec, hothers _ (by rfl) ?_, ?_⟩
  · exact List.forall_mem_cons.mpr ⟨fun _ h => h, List.forall_mem_singleton.mpr fun _ h => h⟩
  · exact (hperm _ _ members.reverse_perm.symm).trans hspec

/-- A member that is neither the tag nor a field has to spell a text: an escape that is half of a surrogate pair
spoils the object. -/
theorem garbled_member_spoils :
    let members : List (String × Json) :=
      [("type", .string "camera"), ("scale", .number (.natural 1)), ("note", .garbled)]
    Json.parse? "\x7b\"type\":\"camera\",\"scale\":1,\"note\":\"\\ud800\"\x7d" = some (.object members) ∧
      ("camera", Camera.fields) ∈ generators ∧ HasOnly members "type" (.string "camera") ∧
      HasFields members Camera.fields ∧ ofJson? (.object members) = none ∧
      ofJson? (.object (members.filter fun m => m.1 != "note")) = some (.camera ⟨1⟩) := by
  intro members
  refine ⟨by cbv, by decide, by rfl, fun f hf => ?_, by rfl, by rfl⟩
  obtain rfl := List.mem_singleton.mp hf
  exact ⟨.number (.natural 1), by rfl, .scalar _⟩

end MeshSpec

end TriMesh
