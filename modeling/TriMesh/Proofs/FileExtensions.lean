import Mathlib.Data.List.Basic
import Mathlib.Data.List.TakeWhile
import TriMesh.Format

/-! # File names and their extensions

Which part of a path decides its format.

* **Names.** A path with an ordinary last component is a directory, that name, and a trail of separators and single
  dots (`Spells`).  The name is found in every such path and in no other one (`fileName?_eq_some_iff`), so a
  directory in front and a trail behind do not matter.
* **Endings.** The extension is what stands behind the last dot of the name, if something stands before that dot
  (`extension?_eq_some_iff`).
* **Formats.** No extension belongs to two formats, so the order in which they are tried does not matter
  (`Format.find?_of_perm`). -/

namespace TriMesh

/-! ### Trails -/

/-- Separators and single dots behind a path. -/
inductive IsTrail : List Char → Prop where
  | nil : IsTrail []
  | slash {cs : List Char} : IsTrail cs → IsTrail ('/' :: cs)
  | dot {cs : List Char} : IsTrail cs → IsTrail ('/' :: '.' :: cs)

theorem IsTrail.append {cs ds : List Char} (hcs : IsTrail cs) (hds : IsTrail ds) : IsTrail (cs ++ ds) := by
  induction hcs with
  | nil => exact hds
  | slash _ ih => exact ih.slash
  | dot _ ih => exact ih.dot

/-- A component that names a file or a directory. -/
structure IsOrdinary (name : List Char) : Prop where
  /-- It is not empty. -/
  ne_nil : name ≠ []
  /-- It is not the directory itself. -/
  ne_dot : name ≠ ['.']
  /-- It is not the directory above. -/
  ne_dots : name ≠ ['.', '.']
  /-- It is a single component. -/
  slash_notMem : '/' ∉ name

/-- A path is a directory, the ordinary name of something in it, and a trail. -/
structure Spells (path : String) (dir name trail : List Char) : Prop where
  /-- The parts make up the path. -/
  eq_append : path.toList = dir ++ (name ++ trail)
  /-- The directory ends with a separator, if there is one. -/
  dir_ends : dir = [] ∨ dir.getLast? = some '/'
  /-- The name is ordinary. -/
  ordinary : IsOrdinary name
  /-- There is nothing else behind the name. -/
  isTrail : IsTrail trail

/-! ### The last component -/

/-- The last component that is neither empty nor a single dot. -/
def lastComponent? (cs : List Char) : Option (List Char) :=
  (cs.splitOn '/').reverse.find? fun c => c ≠ [] ∧ c ≠ ['.']

theorem fileName?_eq (path : String) : fileName? path = (lastComponent? path.toList).filter (· ≠ ['.', '.']) := rfl

theorem lastComponent?_of_notMem {cs : List Char} (h : '/' ∉ cs) :
    lastComponent? cs = if cs ≠ [] ∧ cs ≠ ['.'] then some cs else none := by
  rw [lastComponent?, List.splitOn_eq_singleton h, List.reverse_singleton, List.find?_singleton]
  simp

/-- What stands behind a separator comes first. -/
theorem lastComponent?_append (cs ds : List Char) :
    lastComponent? (cs ++ '/' :: ds) = (lastComponent? ds).or (lastComponent? cs) := by
  have hsplit : (cs ++ '/' :: ds).splitOn '/' = cs.splitOn '/' ++ ds.splitOn '/' := by
    simp only [List.splitOn_eq_splitOnP]
    exact List.splitOnP_append_cons cs ds (beq_self_eq_true _)
  rw [lastComponent?, hsplit, List.reverse_append, List.find?_append]
  rfl

theorem lastComponent?_append_trail {trail : List Char} (h : IsTrail trail) :
    ∀ cs : List Char, lastComponent? (cs ++ trail) = lastComponent? cs := by
  induction h with
  | nil => exact fun cs => by rw [List.append_nil]
  | @slash trail _ ih =>
      intro cs
      have hslash : lastComponent? (cs ++ ['/']) = lastComponent? cs := lastComponent?_append cs []
      rw [List.append_cons, ih, hslash]
  | @dot trail _ ih =>
      intro cs
      have hdot : lastComponent? (cs ++ ['/', '.']) = lastComponent? cs := lastComponent?_append cs ['.']
      rw [List.append_cons, List.append_cons, ih, List.append_assoc, List.singleton_append, hdot]

/-- What is found is the last part of the text but for a trail. -/
theorem exists_of_lastComponent?_eq {cs name : List Char} (h : lastComponent? cs = some name) :
    '/' ∉ name ∧ name ≠ [] ∧ name ≠ ['.'] ∧
      ∃ dir trail, cs = dir ++ (name ++ trail) ∧ (dir = [] ∨ dir.getLast? = some '/') ∧ IsTrail trail := by
  induction hn : cs.length using Nat.strongRecOn generalizing cs with
  | ind n ih =>
      by_cases hslash : '/' ∈ cs
      · -- the text is cut at its last separator
        obtain ⟨last, front, hcut, hlast⟩ := List.eq_append_cons_of_mem (List.mem_reverse.mpr hslash)
        obtain rfl : cs = front.reverse ++ '/' :: last.reverse := by
          rw [← List.reverse_reverse cs, hcut]
          simp
        have hlast : '/' ∉ last.reverse := mt List.mem_reverse.mp hlast
        generalize last.reverse = last at *
        generalize front.reverse = front at *
        rw [lastComponent?_append, lastComponent?_of_notMem hlast] at h
        split at h
        case isTrue hname =>
          obtain rfl : last = name := by simpa using h
          exact ⟨hlast, hname.1, hname.2, front ++ ['/'], [], by simp, Or.inr List.getLast?_concat, .nil⟩
        case isFalse hname =>
          rw [Option.none_or] at h
          obtain ⟨hnotMem, hne, hdot, dir, trail, rfl, hdir, htrail⟩ := ih front.length (by simp at hn; omega) h rfl
          refine ⟨hnotMem, hne, hdot, dir, trail ++ '/' :: last, by simp, hdir, htrail.append ?_⟩
          by_cases hnil : last = []
          · exact hnil ▸ IsTrail.nil.slash
          · have hlast : last = ['.'] := by tauto
            exact hlast ▸ IsTrail.nil.dot
      · rw [lastComponent?_of_notMem hslash] at h
        split at h
        case isTrue hname =>
          obtain rfl : cs = name := by simpa using h
          exact ⟨hslash, hname.1, hname.2, [], [], by simp, Or.inl rfl, .nil⟩
        case isFalse => cases h

section names
variable {path : String} {dir name trail : List Char}

theorem Spells.lastComponent?_eq (h : Spells path dir name trail) : lastComponent? path.toList = some name := by
  have hname : lastComponent? name = some name := by
    rw [lastComponent?_of_notMem h.ordinary.slash_notMem, if_pos ⟨h.ordinary.ne_nil, h.ordinary.ne_dot⟩]
  rw [h.eq_append, ← List.append_assoc, lastComponent?_append_trail h.isTrail]
  rcases h.dir_ends with rfl | hdir
  · exact hname
  · obtain ⟨front, rfl⟩ := List.getLast?_eq_some_iff.mp hdir
    rw [List.append_assoc, List.singleton_append, lastComponent?_append, hname, Option.some_or]

/-- **The name that a path leads to** is the ordinary last component, if there is one. -/
theorem fileName?_eq_some_iff : fileName? path = some name ↔ ∃ dir trail, Spells path dir name trail := by
  rw [fileName?_eq, Option.filter_eq_some_iff, decide_eq_true_eq]
  constructor
  · rintro ⟨hlast, hdots⟩
    obtain ⟨hslash, hne, hdot, dir, trail, hpath, hdir, htrail⟩ := exists_of_lastComponent?_eq hlast
    exact ⟨dir, trail, hpath, hdir, ⟨hne, hdot, hdots, hslash⟩, htrail⟩
  · rintro ⟨dir, trail, h⟩
    exact ⟨h.lastComponent?_eq, h.ordinary.ne_dots⟩

/-- A directory in front does not matter. -/
theorem fileName?_append_left (h : Spells path dir name trail) (more : String) :
    fileName? (more ++ "/" ++ path) = fileName? path := by
  have hpath : (more ++ "/" ++ path).toList = more.toList ++ '/' :: path.toList := by simp
  rw [fileName?_eq, fileName?_eq, hpath, lastComponent?_append, h.lastComponent?_eq, Option.some_or]

/-- A trail behind does not matter. -/
theorem fileName?_append_trail (path : String) (h : IsTrail trail) :
    fileName? (path ++ String.ofList trail) = fileName? path := by
  have hpath : (path ++ String.ofList trail).toList = path.toList ++ trail := by simp
  rw [fileName?_eq, fileName?_eq, hpath, lastComponent?_append_trail h]

end names

/-! ### Endings -/

/-- Read from its end, a name shows its ending up to the last dot. -/
theorem takeWhile_reverse_ending (stem : List Char) {ending : List Char} (h : '.' ∉ ending) :
    (stem ++ '.' :: ending).reverse.takeWhile (· ≠ '.') = ending.reverse := by
  have hall : ∀ c ∈ ending.reverse, (decide (c ≠ '.')) = true := fun c hc =>
    decide_eq_true fun heq => h (heq ▸ List.mem_reverse.mp hc)
  rw [List.reverse_append, List.reverse_cons, List.append_assoc, List.takeWhile_append_of_pos hall]
  simp

/-- A name has its last dot in one place only. -/
theorem append_dot_inj {stem stem' ending ending' : List Char} (h : '.' ∉ ending) (h' : '.' ∉ ending')
    (heq : stem ++ '.' :: ending = stem' ++ '.' :: ending') : stem = stem' ∧ ending = ending' := by
  have hending : ending = ending' := by
    apply List.reverse_injective
    rw [← takeWhile_reverse_ending stem h, ← takeWhile_reverse_ending stem' h', heq]
  subst hending
  exact ⟨List.append_cancel_right heq, rfl⟩

theorem nameExtension?_eq_some_iff {name ending : List Char} :
    nameExtension? name = some ending ↔ ∃ stem, name = stem ++ '.' :: ending ∧ stem ≠ [] ∧ '.' ∉ ending := by
  unfold nameExtension?
  constructor
  · intro h
    dsimp only at h
    split at h
    case isTrue hlength =>
      obtain rfl := Option.some.inj h
      have hcut : name.reverse.takeWhile (· ≠ '.') ++ name.reverse.dropWhile (· ≠ '.') = name.reverse :=
        List.takeWhile_append_dropWhile
      have hdot := List.head?_dropWhile_not (· ≠ '.') name.reverse
      have hending : '.' ∉ name.reverse.takeWhile (· ≠ '.') := fun hmem => by
        simpa using List.mem_takeWhile_imp hmem
      generalize name.reverse.takeWhile (· ≠ '.') = ending at *
      -- behind the dot that stops the reading there is something more
      match hrest : name.reverse.dropWhile (· ≠ '.') with
      | [] | [_] =>
          have hcount := congrArg List.length hcut
          rw [hrest] at hcount
          simp at hcount
          omega
      | c :: d :: stem =>
          rw [hrest] at hcut hdot
          obtain rfl : c = '.' := by simpa using hdot
          refine ⟨(d :: stem).reverse, ?_, by simp, mt List.mem_reverse.mp hending⟩
          rw [← List.reverse_reverse name, ← hcut]
          simp
    case isFalse => cases h
  · rintro ⟨stem, rfl, hstem, hending⟩
    have hpos : 0 < stem.length := List.length_pos_iff.mpr hstem
    dsimp only
    rw [takeWhile_reverse_ending stem hending, List.reverse_reverse, if_pos]
    simp only [List.length_reverse, List.length_append, List.length_cons]
    omega

/-- The path leads to an ordinary name that is a stem, a dot and an ending without a dot. -/
def HasEnding (path ending : String) : Prop :=
  ∃ dir stem trail, Spells path dir (stem ++ '.' :: ending.toList) trail ∧ stem ≠ [] ∧ '.' ∉ ending.toList

/-- **The extension of a path** is the ending of the name that it leads to. -/
theorem extension?_eq_some_iff {path ending : String} : extension? path = some ending ↔ HasEnding path ending := by
  simp only [extension?, Option.map_eq_some_iff, Option.bind_eq_some_iff, fileName?_eq_some_iff,
    nameExtension?_eq_some_iff]
  constructor
  · rintro ⟨ending, ⟨name, ⟨dir, trail, hpath⟩, stem, rfl, hstem, hending⟩, rfl⟩
    exact ⟨dir, stem, trail, by simpa using hpath, hstem, by simpa using hending⟩
  · rintro ⟨dir, stem, trail, hpath, hstem, hending⟩
    exact ⟨ending.toList, ⟨_, ⟨dir, trail, hpath⟩, stem, rfl, hstem, hending⟩, String.ofList_toList⟩

/-! ### Formats -/

namespace Format

/-- No extension belongs to two formats. -/
theorem eq_of_mem_extensions {f g : Format} {extension : String} (hf : extension ∈ f.extensions)
    (hg : extension ∈ g.extensions) : f = g := by
  cases f <;> cases g <;> simp_all [extensions]

theorem exists_mem_extensions_iff {extension : String} :
    (∃ f : Format, extension ∈ f.extensions) ↔ extension ∈ ["stl", "obj", "dae"] := by
  constructor
  · rintro ⟨f, hf⟩
    cases f <;> simp_all [extensions]
  · intro h
    simp only [List.mem_cons, List.not_mem_nil, or_false] at h
    rcases h with rfl | rfl | rfl
    · exact ⟨.triangleSoup, List.mem_singleton.mpr rfl⟩
    · exact ⟨.asciiTriMesh, List.mem_singleton.mpr rfl⟩
    · exact ⟨.sceneGraphXml, List.mem_singleton.mpr rfl⟩

theorem empty_notMem_extensions (f : Format) : "" ∉ f.extensions := by
  cases f <;> decide

/-- In whatever order the formats are tried, the one with the extension is found. -/
theorem find?_eq_some_iff {order : List Format} (h : ∀ f, f ∈ order) {extension : String} {f : Format} :
    (order.find? fun f => f.extensions.contains (extension.map Char.toLower)) = some f ↔
      extension.map Char.toLower ∈ f.extensions := by
  constructor
  · intro hfound
    have hcontains := List.find?_some hfound
    exact List.contains_iff_mem.mp hcontains
  · intro hf
    have hsome : (order.find? fun f => f.extensions.contains (extension.map Char.toLower)).isSome :=
      List.find?_isSome.mpr ⟨f, h f, List.contains_iff_mem.mpr hf⟩
    obtain ⟨g, hg⟩ := Option.isSome_iff_exists.mp hsome
    have hcontains := List.find?_some hg
    rw [hg, eq_of_mem_extensions (List.contains_iff_mem.mp hcontains) hf]

theorem mem_all (f : Format) : f ∈ all := by
  cases f <;> decide

theorem ofExtension?_eq_some_iff {extension : String} {f : Format} :
    ofExtension? extension = some f ↔ extension.map Char.toLower ∈ f.extensions :=
  find?_eq_some_iff mem_all

theorem find?_of_perm {order : List Format} (h : order.Perm all) (extension : String) :
    (order.find? fun f => f.extensions.contains (extension.map Char.toLower)) = ofExtension? extension := by
  ext f
  rw [find?_eq_some_iff fun g => h.mem_iff.mpr g.mem_all, ofExtension?_eq_some_iff]

/-! ### The format of a path -/

section path
variable {path : String}

theorem ofPath_of_none (h : extension? path = none) : ofPath path = .error (.invalidPath path) := by
  unfold ofPath
  rw [h]

theorem ofPath_of_some {ending : String} (h : extension? path = some ending) :
    ofPath path =
      match ofExtension? ending with
      | some f => .ok f
      | none => .error (.unsupportedFormat ending) := by
  cases hf : ofExtension? ending <;> simp only [ofPath, h, hf]

theorem ofPath_eq_ok_iff {f : Format} :
    ofPath path = .ok f ↔ ∃ ending, HasEnding path ending ∧ ending.map Char.toLower ∈ f.extensions := by
  simp only [← extension?_eq_some_iff, ← ofExtension?_eq_some_iff]
  cases h : extension? path with
  | none => simp [ofPath_of_none h]
  | some ending =>
      rw [ofPath_of_some h]
      cases hf : ofExtension? ending <;> simp [hf]

theorem ofPath_eq_error_iff {e : MeshError} :
    ofPath path = .error e ↔
      (¬∃ ending, HasEnding path ending) ∧ e = .invalidPath path ∨
        ∃ ending, HasEnding path ending ∧ (¬∃ f : Format, ending.map Char.toLower ∈ f.extensions) ∧
          e = .unsupportedFormat ending := by
  simp only [← extension?_eq_some_iff, ← ofExtension?_eq_some_iff]
  cases h : extension? path with
  | none => simp [ofPath_of_none h, eq_comm]
  | some ending =>
      rw [ofPath_of_some h]
      cases hf : ofExtension? ending <;> simp [hf, eq_comm]

/-- The error without the path that it quotes. -/
def apartFromPath : MeshError → MeshError
  | .invalidPath _ => .invalidPath ""
  | e => e

/-- The format that the name of a file stands for; the path itself only shows when it is quoted. -/
theorem mapError_ofPath_of_fileName? {other : String} (h : fileName? other = fileName? path) :
    (ofPath other).mapError apartFromPath = (ofPath path).mapError apartFromPath := by
  have hextension : extension? other = extension? path := by rw [extension?, extension?, h]
  cases hpath : extension? path with
  | none =>
      rw [ofPath_of_none hpath, ofPath_of_none (hextension.trans hpath)]
      rfl
  | some ending => rw [ofPath_of_some hpath, ofPath_of_some (hextension.trans hpath)]

end path

/-! ### The case of letters -/

/-- Only letters have another case. -/
theorem eq_of_toLower_eq {c d : Char} (hd : d.toNat < 97) (h : c.toLower = d) : c = d := by
  unfold Char.toLower at h
  split at h
  case isTrue hc =>
      have hlow : 65 ≤ c.val.toNat := UInt32.le_iff_toNat_le.mp hc.1
      have hhigh : c.val.toNat ≤ 90 := UInt32.le_iff_toNat_le.mp hc.2
      have hval : (c.val.toNat + 32) % 2 ^ 32 = d.toNat := congrArg Char.toNat h
      omega
  case isFalse => exact h

/-- Texts that differ in case have the same dots and separators. -/
theorem mem_of_map_toLower_eq {text other : String} (h : other.map Char.toLower = text.map Char.toLower) {d : Char}
    (hd : d.toNat < 97) (hlower : d.toLower = d) (hmem : d ∈ other.toList) : d ∈ text.toList := by
  have hlists : other.toList.map Char.toLower = text.toList.map Char.toLower := by
    simpa using congrArg String.toList h
  have hmap : d ∈ other.toList.map Char.toLower := List.mem_map.mpr ⟨d, hmem, hlower⟩
  rw [hlists] at hmap
  obtain ⟨c, hc, hcd⟩ := List.mem_map.mp hmap
  exact eq_of_toLower_eq hd hcd ▸ hc

/-- The ending of a path that has a format, in another case, leads to the same format. -/
theorem ofPath_change_case {path ending other : String} {dir stem trail : List Char} {f : Format}
    (h : Spells path dir (stem ++ '.' :: ending.toList) trail) (hending : '.' ∉ ending.toList)
    (hcase : other.map Char.toLower = ending.map Char.toLower) (hf : ofPath path = .ok f) :
    ofPath (String.ofList (dir ++ (stem ++ '.' :: other.toList ++ trail))) = .ok f := by
  obtain ⟨found, ⟨dir', stem', trail', hpath, hstem', hfound⟩, hlower⟩ := ofPath_eq_ok_iff.mp hf
  have hname : stem ++ '.' :: ending.toList = stem' ++ '.' :: found.toList :=
    Option.some_inj.mp (h.lastComponent?_eq.symm.trans hpath.lastComponent?_eq)
  obtain ⟨rfl, hsame⟩ := append_dot_inj hending hfound hname
  obtain rfl : ending = found := String.toList_inj.mp hsame
  rw [← hcase] at hlower
  have hdot : '.' ∉ other.toList := mt (mem_of_map_toLower_eq hcase (by decide) (by decide)) hending
  have hslash : '/' ∉ other.toList := fun hmem =>
    h.ordinary.slash_notMem (by simp [mem_of_map_toLower_eq hcase (by decide) (by decide) hmem])
  -- an empty ending could make the name that of the directory above
  have hne : other.toList ≠ [] := fun hnil => by
    have hempty : other.map Char.toLower = "" :=
      String.toList_inj.mp (by rw [String.toList_map, hnil, List.map_nil, String.toList_empty])
    exact empty_notMem_extensions f (hempty ▸ hlower)
  have hordinary : IsOrdinary (stem ++ '.' :: other.toList) := by
    have hstem : stem.length ≠ 0 := mt List.length_eq_zero_iff.mp hstem'
    have hlength : other.toList.length ≠ 0 := mt List.length_eq_zero_iff.mp hne
    have hlong : 2 < (stem ++ '.' :: other.toList).length := by
      rw [List.length_append, List.length_cons]
      omega
    refine ⟨fun heq => ?_, fun heq => ?_, fun heq => ?_, ?_⟩
    · simp [heq] at hlong
    · simp [heq] at hlong
    · simp [heq] at hlong
    · have hfront := h.ordinary.slash_notMem
      simp only [List.mem_append, List.mem_cons, not_or] at hfront ⊢
      exact ⟨hfront.1, hfront.2.1, hslash⟩
  refine ofPath_eq_ok_iff.mpr ⟨other, ⟨dir, stem, trail, ⟨?_, h.dir_ends, hordinary, h.isTrail⟩, hstem', hdot⟩, hlower⟩
  exact String.toList_ofList

/-! ### Every path -/

/-- **The format of a file is that of its name.**  A path is accepted exactly when it has a format, and it has one
exactly when it leads to a name with a stem and an ending that is an extension but for the case of its letters; else
it is invalid without an ending, and its ending is quoted as it is written.  For an ordinary name neither the
directory in front nor the trail behind matters, nor the case of an ending that is an extension; the order in which
formats are tried never matters. -/
theorem ofPath_by_name :
    (∀ path : String,
      (accepts path = true ↔ ∃ f, ofPath path = .ok f) ∧
        ((∃ f, ofPath path = .ok f) ↔
          ∃ ending, HasEnding path ending ∧ ending.map Char.toLower ∈ ["stl", "obj", "dae"]) ∧
        ∀ e, ofPath path = .error e ↔
          (¬∃ ending, HasEnding path ending) ∧ e = .invalidPath path ∨
            ∃ ending, HasEnding path ending ∧ ending.map Char.toLower ∉ ["stl", "obj", "dae"] ∧
              e = .unsupportedFormat ending) ∧
      (∀ (path : String) (dir name trail : List Char), Spells path dir name trail →
        (∀ more : String, (ofPath (more ++ "/" ++ path)).mapError apartFromPath = (ofPath path).mapError apartFromPath) ∧
          (∀ more : List Char, IsTrail more →
            (ofPath (path ++ String.ofList more)).mapError apartFromPath = (ofPath path).mapError apartFromPath) ∧
          ∀ (stem : List Char) (ending other : String) (f : Format), name = stem ++ '.' :: ending.toList →
            '.' ∉ ending.toList → other.map Char.toLower = ending.map Char.toLower → ofPath path = .ok f →
              ofPath (String.ofList (dir ++ (stem ++ '.' :: other.toList ++ trail))) = .ok f) ∧
      ∀ order : List Format, order.Perm all → ∀ extension : String,
        (order.find? fun f => f.extensions.contains (extension.map Char.toLower)) = ofExtension? extension := by
  refine ⟨fun path => ⟨?_, ?_, fun e => ?_⟩, fun path dir name trail h => ⟨fun more => ?_, fun more hmore => ?_, ?_⟩,
    fun order horder extension => find?_of_perm horder extension⟩
  · unfold accepts
    cases ofPath path <;> simp [Except.toBool]
  · simp only [ofPath_eq_ok_iff, ← exists_mem_extensions_iff]
    constructor
    · rintro ⟨f, ending, hending, hf⟩
      exact ⟨ending, hending, f, hf⟩
    · rintro ⟨ending, hending, f, hf⟩
      exact ⟨f, ending, hending, hf⟩
  · rw [ofPath_eq_error_iff]
    simp only [exists_mem_extensions_iff]
  · exact mapError_ofPath_of_fileName? (fileName?_append_left h more)
  · exact mapError_ofPath_of_fileName? (fileName?_append_trail path hmore)
  · rintro stem ending other f rfl hending hcase hf
    exact ofPath_change_case h hending hcase hf

/-- A name with two dots and capitals, with a trail behind it. -/
theorem ofPath_by_name_base :
    Spells "a/base.v2.STL//./" "a/".toList ("base.v2".toList ++ '.' :: "STL".toList) "//./".toList ∧
      ofPath "a/base.v2.STL//./" = .ok .triangleSoup ∧
      (ofPath ("../.." ++ "/" ++ "a/base.v2.STL//./")).mapError apartFromPath = .ok .triangleSoup ∧
      ofPath "a/base.v2.sTl//./" = .ok .triangleSoup := by
  have hspells : Spells "a/base.v2.STL//./" "a/".toList ("base.v2".toList ++ '.' :: "STL".toList) "//./".toList :=
    ⟨by decide, Or.inr (by decide), ⟨by decide, by decide, by decide, by decide⟩, .slash (.dot (.slash .nil))⟩
  have hupper : "STL".map Char.toLower = "stl" := String.toList_inj.mp (by rw [String.toList_map]; decide)
  have hmixed : "sTl".map Char.toLower = "stl" := String.toList_inj.mp (by rw [String.toList_map]; decide)
  have hf : ofPath "a/base.v2.STL//./" = .ok .triangleSoup :=
    ofPath_eq_ok_iff.mpr ⟨"STL", ⟨_, _, _, hspells, by decide, by decide⟩, List.mem_singleton.mpr hupper⟩
  obtain ⟨-, hnames, -⟩ := ofPath_by_name
  obtain ⟨hdir, -, hcase⟩ := hnames _ _ _ _ hspells
  refine ⟨hspells, hf, ?_, ?_⟩
  · rw [hdir "../..", hf]
    rfl
  · exact hcase "base.v2".toList "STL" "sTl" .triangleSoup rfl (by decide) (hmixed.trans hupper.symm) hf

end Format

end TriMesh
