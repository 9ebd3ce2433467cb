import HostMonitoring.Release.Bundle

namespace HostMonitoring.Release

open Framework Framework.Checks

variable (sha : Digest) (expected : Expected)

theorem validateNodes_eq (children : List (OsString × Node)) :
    validateNodes sha expected children =
      children.map fun c => (c.1, validateNode sha expected c.2) := by
  induction children with
  | nil => rw [validateNodes, List.map_nil]
  | cons c rest ih => rw [validateNodes, ih, List.map_cons]

theorem validateNode_directory (mode : Nat) (children : List (OsString × Node))
    (relative : RelativePath) (w : Walk) :
    validateNode sha expected (.directory mode children) relative w =
      enterDirectory expected mode relative w >>= fun w =>
        (Node.sortByName nameLe children).foldlM
          (fun w c => validateChild relative c.1 (validateNode sha expected c.2) w) w := by
  rw [validateNode]
  congr
  funext w
  rw [validateNodes_eq, Node.sortByName_map, List.foldlM_map]

/-- What a walk does with a node before its children. -/
def enter (n : Node) (relative : RelativePath) (w : Walk) : Except String Walk :=
  match n with
  | .symlink => .error "release contains a symbolic link"
  | .special => .error "release contains a special file"
  | .file mode nlink content => validateFile sha expected mode nlink content relative w
  | .directory mode _ => enterDirectory expected mode relative w

/-- One node of a walk, taken out of its listing. -/
def meet (w : Walk) (item : RelativePath × Node) : Except String Walk :=
  validateChild item.1.dropLast (item.1.getLast?.getD []) (enter sha expected item.2) w

theorem meet_child (relative : RelativePath) (name : OsString) (n : Node) (w : Walk) :
    meet sha expected w (relative ++ [name], n) =
      validateChild relative name (enter sha expected n) w := by
  simp [meet]

theorem toStr_ok (message : String) (name value : OsString) :
    toStr message name = .ok value ↔ (utf8 name).isSome ∧ value = name := by
  unfold toStr
  split_ifs with h
  · simp [h, eq_comm]
  · simp [h]

def Walk.counted (w : Walk) : Walk :=
  { w with counters := { w.counters with entries := w.counters.entries + 1 } }

theorem countEntry_ok (w w' : Walk) :
    w.countEntry = .ok w' ↔ w.counters.entries + 1 ≤ maxEntries ∧ w' = w.counted := by
  unfold Walk.countEntry
  rw [check_bind_ok, ensure_ok, pure_ok]
  rfl

theorem validateChild_ok (relative : RelativePath) (name : OsString)
    (validate : RelativePath → Walk → Except String Walk) (w w' : Walk)
    (listed : relative ++ [name] ≠ manifestPath) :
    validateChild relative name validate w = .ok w' ↔
      ((utf8 name).isSome ∧ Portable name ∧ w.counters.entries + 1 ≤ maxEntries) ∧
        validate (relative ++ [name]) w.counted = .ok w' := by
  unfold validateChild
  rw [bind_ok]
  constructor
  · rintro ⟨value, ht, h⟩
    obtain ⟨hu, rfl⟩ := (toStr_ok _ _ _).mp ht
    rw [check_bind_ok, validateName, ensure_ok, if_neg listed, bind_ok] at h
    obtain ⟨hp, w₁, hw, h⟩ := h
    obtain ⟨he, rfl⟩ := (countEntry_ok w w₁).mp hw
    exact ⟨⟨hu, hp, he⟩, h⟩
  · rintro ⟨⟨hu, hp, he⟩, h⟩
    refine ⟨name, (toStr_ok _ _ _).mpr ⟨hu, rfl⟩, ?_⟩
    rw [check_bind_ok, validateName, ensure_ok, if_neg listed, bind_ok]
    exact ⟨hp, w.counted, (countEntry_ok w _).mpr ⟨he, rfl⟩, h⟩

/-- The manifest itself is passed over with whatever is below it. -/
theorem validateChild_manifest (validate : RelativePath → Walk → Except String Walk) (w : Walk)
    (name : OsString) (h : [name] = manifestPath) : validateChild [] name validate w = .ok w := by
  obtain rfl : name = bytes releaseManifestName := by
    have path : manifestPath = [bytes releaseManifestName] := by decide +kernel
    simpa [path] using h
  have hu : (utf8 (bytes releaseManifestName)).isSome := by decide +kernel
  have hp : Portable (bytes releaseManifestName) := by decide +kernel
  have ht := (toStr_ok "release contains a non-UTF-8 name" _ _).mpr ⟨hu, rfl⟩
  unfold validateChild
  rw [ht]
  change (validateName (bytes releaseManifestName) >>= fun _ => _) = _
  rw [check_bind_ok, validateName, ensure_ok]
  refine ⟨hp, ?_⟩
  rw [List.nil_append, if_pos h]
  rfl

theorem validateChild_congr (relative : RelativePath) (name : OsString)
    (f g : RelativePath → Walk → Except String Walk) (w : Walk)
    (h : ∀ w, f (relative ++ [name]) w = g (relative ++ [name]) w) :
    validateChild relative name f w = validateChild relative name g w := by
  unfold validateChild
  cases ht : toStr "release contains a non-UTF-8 name" name with
  | error e => rfl
  | ok value =>
    obtain ⟨_, rfl⟩ := (toStr_ok _ _ _).mp ht
    change (validateName value >>= fun _ => _) = (validateName value >>= fun _ => _)
    congr
    funext _
    rw [funext h]

/-- What a child goes through splits into the visit of its node and the rest. -/
theorem validateChild_bind (relative : RelativePath) (name : OsString)
    (first second : RelativePath → Walk → Except String Walk) (w : Walk)
    (listed : relative ++ [name] ≠ manifestPath) :
    validateChild relative name (fun path w => first path w >>= second path) w =
      validateChild relative name first w >>= second (relative ++ [name]) := by
  unfold validateChild
  rw [bind_assoc]
  cases ht : toStr "release contains a non-UTF-8 name" name with
  | error e => rfl
  | ok value =>
    obtain ⟨_, rfl⟩ := (toStr_ok _ _ _).mp ht
    change (validateName value >>= fun _ => _) = (validateName value >>= fun _ => _) >>= _
    rw [bind_assoc]
    congr
    funext _
    rw [if_neg listed, if_neg listed, bind_assoc]

/-- A child goes through what each node of its subtree goes through in turn. -/
theorem validateChild_visited (n : Node) (name : OsString) (relative : RelativePath) (w : Walk)
    (listed : relative ++ [name] ≠ manifestPath)
    (h : ∀ path, path ≠ [] → ∀ w, validateNode sha expected n path w =
      enter sha expected n path w >>= (n.walkOrder nameLe path).foldlM (meet sha expected)) :
    validateChild relative name (validateNode sha expected n) w =
      (Node.visited nameLe relative (name, n)).foldlM (meet sha expected) w := by
  have inner : relative ++ [name] ≠ [] := by simp
  have split := validateChild_congr relative name (validateNode sha expected n)
    (fun path w => enter sha expected n path w >>=
      (n.walkOrder nameLe path).foldlM (meet sha expected)) w (h (relative ++ [name]) inner)
  rw [split, validateChild_bind _ _ _ _ _ listed, Node.visited, List.foldlM_cons, meet_child]

/-- The walk below the root meets each node once, in the order of its path. -/
theorem validateNode_eq (n : Node) : ∀ path, path ≠ [] → ∀ w, validateNode sha expected n path w =
    enter sha expected n path w >>= (n.walkOrder nameLe path).foldlM (meet sha expected) := by
  induction n using Node.induction with
  | directory mode children ih =>
    intro path hp w
    rw [validateNode_directory, Node.walkOrder_directory]
    change enterDirectory expected mode path w >>= _ = enterDirectory expected mode path w >>= _
    congr
    funext w
    rw [foldlM_flatMap]
    apply foldlM_congr
    intro w c hc
    have hm : c ∈ children := (Node.sortByName_perm nameLe children).mem_iff.mp hc
    have deep : path ++ [c.1] ≠ manifestPath := by
      intro h
      have hl := congrArg List.length h
      have one : manifestPath.length = 1 := by decide +kernel
      have pos : 0 < path.length := List.length_pos_iff.mpr hp
      rw [List.length_append, List.length_singleton, one] at hl
      omega
    exact validateChild_visited sha expected c.2 c.1 path w deep (ih c hm)
  | file mode nlink content =>
    intro path _ w
    simp [validateNode, enter, Node.walkOrder]
  | symlink =>
    intro path _ w
    rw [validateNode, enter]
    rfl
  | special =>
    intro path _ w
    rw [validateNode, enter]
    rfl

/-- The nodes a walk meets, in its order. -/
def metNodes (children : List (OsString × Node)) : List (RelativePath × Node) :=
  ((Node.sortByName nameLe children).filter fun c => [c.1] ≠ manifestPath).flatMap
    (Node.visited nameLe [])

theorem validateDirectory_eq (mode : Nat) (children : List (OsString × Node)) (w : Walk) :
    validateDirectory sha expected (.directory mode children) [] w =
      (metNodes children).foldlM (meet sha expected) w := by
  rw [validateDirectory, validateNode_directory, metNodes, foldlM_flatMap, List.foldlM_filter]
  change List.foldlM _ w _ = _
  apply foldlM_congr
  intro w c _
  by_cases h : [c.1] = manifestPath
  · rw [validateChild_manifest _ w c.1 h, if_neg (by simp [h])]
    rfl
  · rw [if_pos (by simp [h])]
    exact validateChild_visited sha expected c.2 c.1 [] w h (validateNode_eq sha expected c.2)

/-- A node is what an entry says of it. -/
def Describes (entry : ReleaseEntry) (n : Node) : Prop :=
  match entry, n with
  | .directory _ mode, .directory m _ => parseMode mode = .ok (permissionMode m)
  | .file _ mode size sha256, .file m nlink content =>
    parseMode mode = .ok (permissionMode m) ∧ nlink = 1 ∧ content.length = size.toNat ∧
      encodeHex (sha content).toList = sha256
  | _, _ => False

def fileBytes : Node → Nat
  | .file _ _ content => content.length
  | _ => 0

def isRegular : Node → Bool
  | .file .. => true
  | _ => false

/-- What a walk has after it met a node. -/
def Walk.met (w : Walk) (path : RelativePath) (n : Node) : Walk :=
  ⟨path :: w.seen, w.counters.entries, w.counters.files + (if isRegular n then 1 else 0),
    w.counters.bytes + fileBytes n⟩

theorem insert_ok (w w' : Walk) (path : RelativePath) :
    w.insert path = .ok w' ↔ path ∉ w.seen ∧ w' = { w with seen := path :: w.seen } := by
  rw [Walk.insert, check_bind_ok, ensure_ok, pure_ok]

theorem readVerifiedFile_ok (maximum mode nlink : Nat) (content contents : List UInt8) :
    readVerifiedFile maximum (.file mode nlink content) = .ok contents ↔
      nlink = 1 ∧ content.length ≤ maximum ∧ contents = content := by
  rw [readVerifiedFile, ensureRegularMetadata, check_bind_ok, ensure_ok, check_bind_ok, ensure_ok,
    pure_ok]
  constructor
  · rintro ⟨hn, hl, h⟩
    exact ⟨hn, hl, by rw [h, List.take_of_length_le (Nat.le_succ_of_le hl)]⟩
  · rintro ⟨hn, hl, h⟩
    exact ⟨hn, hl, by rw [h, List.take_of_length_le (Nat.le_succ_of_le hl)]⟩

theorem enterDirectory_ok (mode : Nat) (children : List (OsString × Node)) (path : RelativePath)
    (w w' : Walk) (inner : path ≠ []) :
    enterDirectory expected mode path w = .ok w' ↔
      (∃ e, expected.get? path = some e ∧ Describes sha e (.directory mode children)) ∧
        path ∉ w.seen ∧ w' = w.met path (.directory mode children) := by
  rw [enterDirectory, if_neg inner]
  cases he : expected.get? path with
  | none => simp
  | some e =>
    cases e with
    | file => simp [Describes]
    | directory p required =>
      simp only [bind_ok, ensure_ok, insert_ok, Option.some.injEq, exists_eq_left', Describes,
        Walk.met, isRegular, fileBytes]
      constructor
      · rintro ⟨m, hm, _, rfl, hseen, rfl⟩
        exact ⟨hm, hseen, rfl⟩
      · rintro ⟨hm, hseen, rfl⟩
        exact ⟨_, hm, (), rfl, hseen, rfl⟩

theorem validateFile_ok (mode nlink : Nat) (content : List UInt8) (path : RelativePath)
    (w w' : Walk) :
    validateFile sha expected mode nlink content path w = .ok w' ↔
      ((∃ e, expected.get? path = some e ∧ Describes sha e (.file mode nlink content)) ∧
        content.length ≤ maxFileBytes ∧ w.counters.bytes + content.length ≤ maxReleaseBytes) ∧
        path ∉ w.seen ∧ w' = w.met path (.file mode nlink content) := by
  unfold validateFile
  cases he : expected.get? path with
  | none => simp
  | some e =>
    cases e with
    | directory => simp [Describes]
    | file p required size sha256 =>
      simp only [bind_ok, ensure_ok, insert_ok, Option.some.injEq, exists_eq_left', Describes,
        Walk.met, isRegular, fileBytes, readVerifiedFile_ok, ensureRegularMetadata]
      constructor
      · rintro ⟨_, hn, m, hm, _, rfl, _, hl, c, ⟨_, hmax, rfl⟩, _, hd, _, _, _, ht, hseen, rfl⟩
        exact ⟨⟨⟨hm, hn, hl, hd⟩, hmax, hl ▸ ht⟩, hseen, by rw [hl]; rfl⟩
      · rintro ⟨⟨⟨hm, hn, hl, hd⟩, hmax, ht⟩, hseen, rfl⟩
        have small : w.counters.bytes + size.toNat < 2 ^ 64 := by
          rw [← hl]
          unfold maxReleaseBytes at ht
          omega
        exact ⟨(), hn, _, hm, (), rfl, (), hl, content, ⟨hn, hmax, rfl⟩, (), hd, (), small, (),
          hl ▸ ht, hseen, by rw [hl]; rfl⟩

/-- A node is what the manifest says at its path. -/
def Found (item : RelativePath × Node) : Prop :=
  (∃ e, expected.get? item.1 = some e ∧ Describes sha e item.2) ∧ fileBytes item.2 ≤ maxFileBytes

theorem enter_ok (n : Node) (path : RelativePath) (w w' : Walk) (inner : path ≠ [])
    (room : w.counters.bytes ≤ maxReleaseBytes) :
    enter sha expected n path w = .ok w' ↔ (Found sha expected (path, n) ∧
      w.counters.bytes + fileBytes n ≤ maxReleaseBytes) ∧ path ∉ w.seen ∧ w' = w.met path n := by
  unfold Found
  cases n with
  | file mode nlink content =>
    rw [enter, validateFile_ok, and_assoc (b := fileBytes _ ≤ _)]
    rfl
  | directory mode children =>
    rw [enter, enterDirectory_ok sha expected mode children path w w' inner]
    simp [fileBytes, room]
  | symlink => simp [enter, Describes]
  | special => simp [enter, Describes]

theorem portable_ascii (name : OsString) (h : Portable name) : Ascii name := by
  intro b hb
  have hp := h.2.2.2 b hb
  unfold portableByte dot at hp
  simp only [Bool.or_eq_true, Bool.and_eq_true, decide_eq_true_eq, beq_iff_eq,
    UInt8.le_iff_toNat_le, ← UInt8.toNat_inj] at hp
  rw [UInt8.lt_iff_toNat_lt]
  simp at hp ⊢
  omega

theorem isSome_utf8 (name : OsString) (h : Ascii name) : (utf8 name).isSome := by
  rw [utf8, decodeFrom_ascii _ name h]
  rfl

/-- What the walk asks of a node's path. -/
def Listed (path : RelativePath) : Prop :=
  path ≠ manifestPath ∧ ∃ parent name, path = parent ++ [name]

def lastName (path : RelativePath) : OsString := path.getLast?.getD []

theorem meet_ok (w w' : Walk) (item : RelativePath × Node) (listed : Listed item.1)
    (room : w.counters.bytes ≤ maxReleaseBytes) :
    meet sha expected w item = .ok w' ↔
      (Portable (lastName item.1) ∧ Found sha expected item) ∧
      (w.counters.entries + 1 ≤ maxEntries ∧
        w.counters.bytes + fileBytes item.2 ≤ maxReleaseBytes) ∧
      item.1 ∉ w.seen ∧ w' = w.counted.met item.1 item.2 := by
  obtain ⟨path, n⟩ := item
  obtain ⟨hm, parent, name, rfl⟩ := listed
  have last : lastName (parent ++ [name]) = name := by simp [lastName]
  have inner : parent ++ [name] ≠ [] := by simp
  rw [meet_child, validateChild_ok _ _ _ _ _ hm, enter_ok _ _ _ _ _ _ inner (by exact room), last]
  constructor
  · rintro ⟨⟨_, hp, he⟩, ⟨hf, hb⟩, hs, rfl⟩
    exact ⟨⟨hp, hf⟩, ⟨he, hb⟩, hs, rfl⟩
  · rintro ⟨⟨hp, hf⟩, ⟨he, hb⟩, hs, rfl⟩
    exact ⟨⟨isSome_utf8 name (portable_ascii name hp), hp, he⟩, ⟨hf, hb⟩, hs, rfl⟩

def totalBytes (items : List (RelativePath × Node)) : Nat :=
  (items.map fun item => fileBytes item.2).sum

def countFiles (items : List (RelativePath × Node)) : Nat :=
  items.countP fun item => isRegular item.2

def paths (items : List (RelativePath × Node)) : List RelativePath := items.map Prod.fst

/-- A walk that began with `w` and met some nodes. -/
def Walk.after (w : Walk) (items : List (RelativePath × Node)) : Walk :=
  ⟨(paths items).reverse ++ w.seen, w.counters.entries + items.length,
    w.counters.files + countFiles items, w.counters.bytes + totalBytes items⟩

theorem Walk.after_cons (w : Walk) (item : RelativePath × Node)
    (items : List (RelativePath × Node)) :
    (w.counted.met item.1 item.2).after items = w.after (item :: items) := by
  simp only [Walk.after, Walk.met, Walk.counted, paths, totalBytes, countFiles, List.map_cons,
    List.reverse_cons, List.append_assoc, List.singleton_append, List.length_cons, List.countP_cons,
    List.sum_cons, Walk.mk.injEq, Counters.mk.injEq, true_and]
  omega

/-- The nodes of a walk are each found, none of them twice, and fit the limits. -/
theorem meets_ok (items : List (RelativePath × Node)) (w w' : Walk)
    (listed : ∀ item ∈ items, Listed item.1)
    (room : w.counters.entries ≤ maxEntries ∧ w.counters.bytes ≤ maxReleaseBytes) :
    items.foldlM (meet sha expected) w = .ok w' ↔
      (∀ item ∈ items, Portable (lastName item.1) ∧ Found sha expected item) ∧
      (w.counters.entries + items.length ≤ maxEntries ∧
        w.counters.bytes + totalBytes items ≤ maxReleaseBytes) ∧
      ((paths items).Nodup ∧ ∀ path ∈ paths items, path ∉ w.seen) ∧ w' = w.after items := by
  induction items generalizing w with
  | nil =>
    rw [List.foldlM_nil, pure_ok]
    simp [Walk.after, totalBytes, countFiles, paths, room]
  | cons item items ih =>
    have hi : Listed item.1 := listed item List.mem_cons_self
    have hrest : ∀ i ∈ items, Listed i.1 := fun i h => listed i (List.mem_cons_of_mem _ h)
    have total : totalBytes (item :: items) = fileBytes item.2 + totalBytes items := by
      simp [totalBytes]
    rw [List.foldlM_cons, bind_ok]
    simp only [meet_ok sha expected w _ item hi room.2]
    constructor
    · rintro ⟨_, ⟨hf, ⟨he, hb⟩, hs, rfl⟩, h⟩
      rw [ih _ hrest ⟨he, hb⟩] at h
      obtain ⟨hfound, ⟨hentries, hbytes⟩, ⟨hnodup, hseen⟩, rfl⟩ := h
      have fresh : item.1 ∉ paths items := fun h => hseen _ h List.mem_cons_self
      refine ⟨List.forall_mem_cons.mpr ⟨hf, hfound⟩, ⟨?_, ?_⟩, ⟨?_, ?_⟩, w.after_cons item items⟩
      · simp only [Walk.met, Walk.counted] at hentries
        rw [List.length_cons]
        omega
      · simp only [Walk.met, Walk.counted] at hbytes
        omega
      · exact List.nodup_cons.mpr ⟨fresh, hnodup⟩
      · intro path hp hw
        rcases List.mem_cons.mp hp with rfl | hp
        · exact hs hw
        · exact hseen path hp (List.mem_cons_of_mem _ hw)
    · rintro ⟨hfound, ⟨hentries, hbytes⟩, ⟨hnodup, hseen⟩, rfl⟩
      have first := List.forall_mem_cons.mp hfound
      have distinct := List.nodup_cons.mp hnodup
      have unseen := List.forall_mem_cons.mp hseen
      rw [List.length_cons] at hentries
      have he : w.counters.entries + 1 ≤ maxEntries := by omega
      have hb : w.counters.bytes + fileBytes item.2 ≤ maxReleaseBytes := by omega
      refine ⟨_, ⟨first.1, ⟨he, hb⟩, unseen.1, rfl⟩, ?_⟩
      rw [ih _ hrest ⟨he, hb⟩]
      refine ⟨first.2, ⟨?_, ?_⟩, ⟨distinct.2, ?_⟩, (w.after_cons item items).symm⟩
      · simp only [Walk.met, Walk.counted]
        omega
      · simp only [Walk.met, Walk.counted]
        omega
      · intro path hp hw
        rcases List.mem_cons.mp hw with rfl | hw
        · exact distinct.1 hp
        · exact unseen.2 path hp hw

/-- The nodes of a release tree other than what is at or below the root's manifest. -/
def releasedNodes (children : List (OsString × Node)) : List (RelativePath × Node) :=
  (children.filter fun c => [c.1] ≠ manifestPath).flatMap (Node.subtree [])

theorem releasedNodes_listed (children : List (OsString × Node)) (item : RelativePath × Node)
    (h : item ∈ releasedNodes children) : Listed item.1 := by
  obtain ⟨c, hc, h⟩ := List.mem_flatMap.mp h
  have hn : [c.1] ≠ manifestPath := by simpa using (List.mem_filter.mp hc).2
  rcases List.mem_cons.mp h with rfl | h
  · exact ⟨hn, [], c.1, rfl⟩
  · obtain ⟨middle, name, hp⟩ := Node.path_of_mem_descendants c.2 _ item h
    refine ⟨?_, _, name, hp⟩
    intro he
    have one : manifestPath.length = 1 := by decide +kernel
    rw [← he, hp] at one
    simp at one

theorem metNodes_perm (children : List (OsString × Node)) :
    (metNodes children).Perm (releasedNodes children) := by
  unfold metNodes releasedNodes
  apply ((Node.sortByName_perm nameLe children).filter _).flatMap
  intro c _
  exact (Node.walkOrder_perm nameLe c.2 _).cons _

end HostMonitoring.Release
