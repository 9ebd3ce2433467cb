import HostMonitoring.Release.Encoded

namespace HostMonitoring.Release.Writer

open Framework Framework.Checks Framework.JsonText

def identityOf (build : Build) : BinaryIdentity := ⟨releaseJson, build.sourceRevision⟩

theorem current_ok (build : Build) : BinaryIdentity.current build = .ok (identityOf build) := by
  have same : releaseJson = ReleaseContract.current build := by
    rw [ReleaseContract.current, build.supported]
    rfl
  rw [BinaryIdentity.current, embedded, bind_ok]
  refine ⟨releaseJson, ?_, rfl⟩
  rw [check_bind_ok, ensure_ok]
  exact ⟨same, rfl⟩

theorem currentJson_ok (build : Build) :
    currentJson build = .ok (bytes (String.ofList (render (identityOf build).toJson))) := by
  rw [currentJson, bind_ok]
  exact ⟨_, current_ok build, rfl⟩

theorem fits_identity (depth : Nat) (build : Build) :
    Fits (fun s => AsciiText s.toList) (depth + 1) (identityOf build).toJson := by
  have revision : AsciiText build.sourceRevision.toList := by
    rcases build.revision with h | h
    · rw [h]
      decide
    · exact (plain_revision _ h).1.ascii
  have literals : ∀ s ∈ ["manifest_format", "application", "version", "api_prefix",
      "schema_revision", "schema_sha256", "target", "source_revision", releaseJson.manifestFormat,
      releaseJson.application, releaseJson.version, releaseJson.apiPrefix,
      releaseJson.schemaSha256, releaseJson.target], AsciiText s.toList := by
    decide
  simp only [identityOf, BinaryIdentity.toJson, Fits, List.forall_mem_cons, List.not_mem_nil,
    false_implies, implies_true, and_true]
  exact ⟨⟨literals _ (by simp), literals _ (by simp)⟩, ⟨literals _ (by simp), literals _ (by simp)⟩,
    ⟨literals _ (by simp), literals _ (by simp)⟩, ⟨literals _ (by simp), literals _ (by simp)⟩,
    ⟨literals _ (by simp), _, rfl⟩, ⟨literals _ (by simp), literals _ (by simp)⟩,
    ⟨literals _ (by simp), literals _ (by simp)⟩, literals _ (by simp), revision⟩

theorem boundRevision_ok (build : Build) (revision : String)
    (h : boundRevision (identityOf build).toJson = .ok revision) :
    revision = build.sourceRevision ∧ isFullGitRevision build.sourceRevision = true := by
  have given : item [("manifest_format", .str (identityOf build).contract.manifestFormat),
      ("application", .str (identityOf build).contract.application),
      ("version", .str (identityOf build).contract.version),
      ("api_prefix", .str (identityOf build).contract.apiPrefix),
      ("schema_revision", .num (identityOf build).contract.schemaRevision.repr),
      ("schema_sha256", .str (identityOf build).contract.schemaSha256),
      ("target", .str (identityOf build).contract.target),
      ("source_revision", .str (identityOf build).sourceRevision)] "source_revision" =
        some (.str build.sourceRevision) := by
    simp [item, Json.get?, identityOf]
  simp only [BinaryIdentity.toJson, boundRevision, given, check_bind_ok, ensure_ok, pure_ok] at h
  exact ⟨h.2.2.2, h.2.2.1⟩

theorem loads_identity (build : Build) :
    loads (bytes (String.ofList (render (identityOf build).toJson))) =
      some (identityOf build).toJson := by
  have fits := fits_identity 999 build
  have parsed := parse_render _ loadsDepth _ fits [] (List.forall_mem_nil _)
  rw [List.append_nil] at parsed
  rw [loads, utf8_bytes _ (ascii_render _ _ fits), Option.bind_some, parsed]

/-- The writer reads the line of the verifier's build as it is. -/
theorem readIdentity_ok (build : Build) (run : IdentityRun) (revision : String)
    (encoded line : List UInt8) (same : currentJson build = .ok line)
    (stdout : run.stdout = line ++ [newline]) (h : readIdentity run = .ok (revision, encoded)) :
    revision = build.sourceRevision ∧ isFullGitRevision build.sourceRevision = true ∧
      encoded = line := by
  have loaded : loads line = some (identityOf build).toJson := by
    rw [currentJson_ok] at same
    rw [← Except.ok.inj same]
    exact loads_identity build
  have front : run.stdout.dropLast = line := by rw [stdout, List.dropLast_concat]
  unfold readIdentity at h
  simp only [check_bind_ok, front, loaded] at h
  obtain ⟨_, _, h⟩ := h
  obtain ⟨identity, hidentity, h⟩ := (bind_ok _ _ _).mp h
  obtain rfl := Except.ok.inj hidentity
  rw [bind_ok] at h
  obtain ⟨given, bound, h⟩ := h
  obtain ⟨rfl, rfl⟩ := Prod.mk.inj ((pure_ok _ _).mp h)
  obtain ⟨hr, full⟩ := boundRevision_ok build _ bound
  exact ⟨hr, full, rfl⟩

def RunsOwnBinary (site : Site) : Prop :=
  ∃ exe names, site.currentExe = some exe ∧ site.canonicalize exe = some names ∧
    site.canonicalize (serverPath site) = some names

def chmod (mode : Nat) : Node → Node
  | .directory _ children => .directory mode children
  | n => n

/-- A directory of mode 0555, as `lstat` shows it. -/
def directory0555 : Nat := 0o40555

def manifestName : OsString := bytes releaseManifestName

theorem manifestPath_eq : manifestPath = [manifestName] := by decide +kernel

theorem releasedNodes_with_manifest (tree : FileTree OsString) (manifest : Node)
    (absent : tree.children.lookup manifestName = none) :
    releasedNodes (tree.children ++ [(manifestName, manifest)]) = tree.nodes := by
  have others : tree.children.filter (fun c => [c.1] ≠ manifestPath) = tree.children := by
    apply List.filter_eq_self.mpr
    intro c hc
    have ne : manifestName ≠ c.1 := by simpa using List.lookup_eq_none_iff.mp absent c hc
    have apart : [c.1] ≠ manifestPath := by
      rw [manifestPath_eq]
      exact fun h => ne (List.cons.inj h).1.symm
    exact decide_eq_true apart
  rw [releasedNodes, List.filter_append, others, List.filter_cons_of_neg (by simp [manifestPath_eq]),
    FileTree.nodes, FileTree.root, Node.descendants_directory, List.filter_nil, List.append_nil]

theorem plainEntry_of_wrote (sha : Digest) (item : RelativePath × Node) (e : ReleaseEntry)
    (wrote : Wrote sha item e) (allowed : Allowed item.1 e.kind)
    (short : ∀ name ∈ item.1, name.length ≤ 255) : PlainEntry e := by
  have path := plain_pathText item.1 wrote.portable
  rw [← wrote.path] at path
  have mode := plain_mode e
  rw [← wrote.mode] at mode
  have digest := digestText_of_describes sha e item.2 wrote.describes
  refine ⟨?_, ?_, mode.2, wrote.size, digest⟩
  · cases e with
    | directory p m =>
      intro s hs
      simp only [entryTexts, List.mem_cons, List.not_mem_nil, or_false] at hs
      rcases hs with rfl | rfl
      · exact path.1
      · exact mode.1
    | file p m size d =>
      intro s hs
      simp only [entryTexts, List.mem_cons, List.not_mem_nil, or_false] at hs
      rcases hs with rfl | rfl | rfl
      · exact path.1
      · exact mode.1
      · exact (plain_digest s digest).1
  · rw [path.2]
    exact length_of_allowed item.1 e.kind allowed short

/-- The text the writer writes for some entries. -/
def manifestText (sha : Digest) (build : Build) (line : List UInt8) (es : List ReleaseEntry) :
    List UInt8 :=
  bytes (String.ofList (render (sortedManifest build.sourceRevision
    (encodeHex (sha line).toList) es))) ++ [newline]

/-- What the writer left behind when it succeeded. -/
structure Staged (sha : Digest) (build : Build) (line : List UInt8) (tree : FileTree OsString)
    (es : List ReleaseEntry) (result : Node) : Prop where
  result : result = .directory tree.mode
    (tree.children ++ [(manifestName, .file regular0444 1 (manifestText sha build line es))])
  all : (traversal tree.root).Forall₂ (Wrote sha) es
  count : es.length ≤ maxEntries
  total : totalBytes tree.nodes ≤ maxReleaseBytes
  absent : tree.children.lookup manifestName = none
  bound : isFullGitRevision build.sourceRevision = true

theorem staged_of_main (sha : Digest) (build : Build) (tree : FileTree OsString) (site : Site)
    (run : IdentityRun) (line : List UInt8) (result : Node) (node : site.node = tree.root)
    (same : currentJson build = .ok line) (stdout : run.stdout = line ++ [newline])
    (h : main sha site run = .ok result) :
    checkRoot site = .ok () ∧ ∃ es, Staged sha build line tree es result := by
  unfold main at h
  rw [check_bind_ok, node] at h
  obtain ⟨root, h⟩ := h
  simp only [FileTree.root, check_bind_ok, ensure_ok] at h
  obtain ⟨absent, h⟩ := h
  obtain ⟨⟨revision, encoded⟩, identity, h⟩ := (bind_ok _ _ _).mp h
  obtain ⟨rfl, bound, rfl⟩ := readIdentity_ok build run revision encoded line same stdout identity
  obtain ⟨progress, loop, h⟩ := (bind_ok _ _ _).mp h
  obtain rfl := (pure_ok _ _).mp h
  have room : Progress.start.entries.length ≤ maxEntries ∧
      Progress.start.totalBytes ≤ maxReleaseBytes := ⟨Nat.zero_le _, Nat.zero_le _⟩
  obtain ⟨es, all, rfl, count, total⟩ := addPaths_ok sha _ .start progress room loop
  have nothing : Progress.start.entries ++ es.map written = es.map written := List.nil_append _
  rw [nothing, List.length_map] at count
  have bytesOfTree : totalBytes (traversal tree.root) = totalBytes tree.nodes :=
    totalBytes_perm _ _ (traversal_perm tree.root)
  have size : totalBytes tree.nodes ≤ maxReleaseBytes := by
    rw [← bytesOfTree]
    exact (Nat.zero_add (totalBytes (traversal tree.root))) ▸ total
  rw [rootChild, node] at absent
  refine ⟨root, es, ⟨?_, all, count, size, absent, bound⟩⟩
  rw [nothing, manifestText, dumps, sortKeys_manifest]
  rfl

section Verify

variable (sha : Digest) (build : Build) (tree : FileTree OsString) (site : Site) (line : List UInt8)
  (es : List ReleaseEntry) (result : Node)

/-- A root the writer takes is one the verifier takes, once its mode is 0555. -/
theorem validateReleaseRoot_ok (root : checkRoot site = .ok ())
    (staged : Staged sha build line tree es result) :
    validateReleaseRoot { site with node := chmod directory0555 result } = .ok () := by
  simp only [checkRoot, bind_ok, ensure_ok, exists_const] at root
  obtain ⟨⟨absolute, version, releases⟩, names, resolved, canonicalNames, _⟩ := root
  have normal : ∀ c ∈ components site.root, c = .rootDir ∨ c.name?.isSome := by
    change canonical names = components site.root at canonicalNames
    rw [← canonicalNames]
    intro c hc
    rcases List.mem_cons.mp hc with rfl | hc
    · exact Or.inl rfl
    · obtain ⟨name, _, rfl⟩ := List.mem_map.mp hc
      exact Or.inr rfl
  simp only [validateReleaseRoot, bind_ok, ensure_ok, exists_const, staged.result, chmod]
  refine ⟨absolute, normal, ⟨version, releases⟩, names, resolved, canonicalNames, ?_⟩
  decide

/-- The written manifest is found, is small enough and is read as it was meant. -/
theorem readManifest_ok (staged : Staged sha build line tree es result)
    (plain : ∀ e ∈ es, PlainEntry e) :
    readManifest { site with node := chmod directory0555 result } =
      .ok ⟨manifestFormat, application, applicationVersion, build.sourceRevision,
        encodeHex (sha line).toList, es⟩ := by
  have digest := digestText_encodeHex (sha line)
  have parsed := parseManifest_written _ _ es plain staged.bound digest
  have length : (manifestText sha build line es).length ≤ maxManifestBytes := by
    have fits := fits_manifest 0 _ _ es plain staged.bound digest
    have bound := length_manifest _ _ es plain staged.count staged.bound digest
    rwa [manifestText, List.length_append, bytes_ofList _ (ascii_render _ _ fits), List.length_map]
  have found : rootChild { site with node := chmod directory0555 result }
      (bytes releaseManifestName) =
        some (.file regular0444 1 (manifestText sha build line es)) := by
    simp only [rootChild, staged.result, chmod]
    change List.lookup manifestName _ = _
    rw [List.lookup_append, staged.absent, Option.none_or, List.lookup_cons_self]
  rw [readManifest, found, bind_ok]
  refine ⟨_, rfl, ?_⟩
  simp only [ensureRegularMetadata, checkManifestMode, ensure_ok, bind_ok, exists_const,
    readVerifiedFile_ok]
  refine ⟨trivial, by decide, _, ⟨trivial, length, rfl⟩, ?_⟩
  exact congrArg (orFail "release manifest must be strict JSON") parsed

theorem checkManifest_ok (same : currentJson build = .ok line)
    (staged : Staged sha build line tree es result) (ne : es ≠ []) :
    checkManifest sha build true ⟨manifestFormat, application, applicationVersion,
      build.sourceRevision, encodeHex (sha line).toList, es⟩ = .ok () := by
  rw [checkManifest, bind_ok]
  refine ⟨identityOf build, current_ok build, ?_⟩
  simp only [bind_ok, ensure_ok, exists_const, same]
  have digest := digestText_encodeHex (sha line)
  exact ⟨fun _ => staged.bound, ⟨trivial, trivial, trivial, rfl⟩, (), digest, line, rfl, rfl,
    fun _ => staged.bound, ne, staged.count⟩

theorem checkExecutable_ok (own : RunsOwnBinary site) (n : Node) :
    checkExecutable { site with node := n } = .ok () := by
  obtain ⟨exe, names, current, resolved, expected⟩ := own
  simp only [checkExecutable, bind_ok, ensure_ok, current]
  refine ⟨exe, rfl, names, ?_, names, ?_, rfl⟩
  · rw [resolved]
    rfl
  · change orFail _ (site.canonicalize (serverPath site)) = _
    rw [expected]
    rfl

/-- The tree with its manifest holds what the manifest lists. -/
theorem verifyEntries_ok (staged : Staged sha build line tree es result)
    (layout : ExactLayout (nodeKinds tree.nodes)) :
    verifyEntries sha es (chmod directory0555 result) = .ok (reported tree.nodes) := by
  have exact := exact_of_written sha tree es staged.all layout staged.count staged.total
  have nodes := releasedNodes_with_manifest tree
    (.file regular0444 1 (manifestText sha build line es)) staged.absent
  rw [← nodes] at exact ⊢
  rw [staged.result, chmod]
  exact verified_of_exact sha es directory0555 _ exact

theorem plain_of_staged (staged : Staged sha build line tree es result)
    (layout : ExactLayout (nodeKinds tree.nodes))
    (short : ∀ item ∈ tree.nodes, ∀ name ∈ item.1, name.length ≤ 255) :
    es ≠ [] ∧ ∀ e ∈ es, PlainEntry e := by
  have listed := written_kinds sha tree es staged.all
  constructor
  · rintro rfl
    obtain ⟨path, js, _⟩ := layout.javascript
    exact absurd ((listed _).mp js) List.not_mem_nil
  · intro e he
    obtain ⟨item, hi, wrote⟩ := exists_of_forall₂ _ _ es staged.all e he
    have found : item ∈ tree.nodes := (traversal_perm tree.root).mem_iff.mp hi
    have kind : (item.1, e.kind) ∈ nodeKinds tree.nodes := by
      rw [listed, mem_kinds]
      exact ⟨e, he, names_of_wrote sha item e wrote, rfl⟩
    exact plainEntry_of_wrote sha item e wrote (layout.allowed _ kind) (short item found)

end Verify

/-- What the writer writes about a staged tree of the release layout, the verifier accepts in
the same tree. -/
theorem manifest_verifies (sha : Digest) (build : Build) (tree : FileTree OsString) (site : Site)
    (run : IdentityRun) (line : List UInt8) (result : Node) (node : site.node = tree.root)
    (short : ∀ item ∈ tree.nodes, ∀ name ∈ item.1, name.length ≤ 255)
    (layout : ExactLayout (nodeKinds tree.nodes)) (same : currentJson build = .ok line)
    (stdout : run.stdout = line ++ [newline]) (own : RunsOwnBinary site)
    (success : main sha site run = .ok result) :
    verifyRelease sha build { site with node := chmod directory0555 result } =
      .ok ⟨"ok", application, applicationVersion, build.sourceRevision, countFiles tree.nodes,
        totalBytes tree.nodes⟩ := by
  obtain ⟨root, es, staged⟩ :=
    staged_of_main sha build tree site run line result node same stdout success
  obtain ⟨ne, plain⟩ := plain_of_staged sha build tree line es result staged layout short
  have rootOk := validateReleaseRoot_ok sha build tree site line es result root staged
  have manifest := readManifest_ok sha build tree site line es result staged plain
  have identity := checkManifest_ok sha build tree line es result same staged ne
  have executable := checkExecutable_ok site own (chmod directory0555 result)
  have entries := verifyEntries_ok sha build tree line es result staged layout
  rw [verifyRelease, verifyReleaseWithOptions, check_bind_ok]
  refine ⟨rootOk, ?_⟩
  rw [manifest, bind_ok]
  refine ⟨_, rfl, ?_⟩
  rw [check_bind_ok]
  refine ⟨identity, ?_⟩
  rw [if_pos rfl, check_bind_ok]
  refine ⟨executable, ?_⟩
  rw [bind_ok]
  exact ⟨reported tree.nodes, entries, rfl⟩

/-- SHA-256 of the empty text. -/
def emptyDigest : Vector UInt8 32 :=
  #v[0xe3, 0xb0, 0xc4, 0x42, 0x98, 0xfc, 0x1c, 0x14, 0x9a, 0xfb, 0xf4, 0xc8, 0x99, 0x6f, 0xb9, 0x24,
    0x27, 0xae, 0x41, 0xe4, 0x64, 0x9b, 0x93, 0x4c, 0xa4, 0x95, 0x99, 0x1b, 0x78, 0x52, 0xb8, 0x55]

/-- SHA-256 of the identity line of `boundBuild`. -/
def identityDigest : Vector UInt8 32 :=
  #v[0x98, 0xab, 0x7d, 0x43, 0x73, 0x71, 0xe9, 0x6b, 0x77, 0x56, 0x9e, 0x76, 0x89, 0x63, 0x9d, 0x47,
    0xc4, 0x68, 0xb2, 0x40, 0x6d, 0x05, 0xc8, 0x2f, 0x16, 0x3f, 0x7d, 0xae, 0x03, 0x54, 0x9e, 0x4e]

def sampleDigest (text : List UInt8) : Vector UInt8 32 :=
  if text = [] then emptyDigest else identityDigest

def boundBuild : Build :=
  ⟨supportedServerTarget, "0123456789abcdef0123456789abcdef01234567", rfl, Or.inr (by decide +kernel)⟩

def boundLine : List UInt8 := bytes (String.ofList (render (identityOf boundBuild).toJson))

def boundRun : IdentityRun := ⟨0, boundLine ++ [newline], []⟩

def emptyFile (name : String) (mode : Nat) : OsString × Node := (bytes name, .file mode 1 [])

def folder (name : String) (children : List (OsString × Node)) : OsString × Node :=
  (bytes name, .directory directory0555 children)

def stagedTree : FileTree OsString where
  mode := 0o40755
  children := [emptyFile "README.md" regular0444,
    folder "bin" [emptyFile "host-monitoring-server" 0o100555],
    folder "systemd" [emptyFile "host-monitoring-server.service" regular0444],
    folder "web" [folder "assets" [emptyFile "app.js" regular0444],
      emptyFile "index.html" regular0444]]
  distinct := by
    simp only [Node.distinct_directory, folder, emptyFile, List.forall_mem_cons, Node.Distinct,
      Node.DistinctBelow, List.not_mem_nil, false_implies, implies_true]
    decide +kernel

def stagedSite : Site where
  root := bytes "/opt/releases/0.9.10"
  node := stagedTree.root
  canonicalize := fun path => some (path.filterMap Component.name?)
  currentExe := some (components (bytes "/opt/releases/0.9.10/bin/host-monitoring-server"))

theorem staged_layout : ExactLayout (nodeKinds stagedTree.nodes) := by
  have script : IsAsset [bytes "web", bytes "assets", bytes "app.js"] (bytes "js") :=
    ⟨bytes "app.js", by decide +kernel, by decide +kernel⟩
  have fixed : ∀ n ∈ nodeKinds stagedTree.nodes,
      n.1 ∈ directories.map relativePath ∧ n.2 = .directory ∨
        n.1 ∈ fixedFiles.map relativePath ∧ n.2 = .file ∨
        n = ([bytes "web", bytes "assets", bytes "app.js"], .file) := by
    decide +kernel
  refine ⟨by decide +kernel, by decide +kernel, ?_, _, ?_, script⟩
  · rintro ⟨path, kind⟩ hn
    rcases fixed _ hn with ⟨hd, rfl⟩ | ⟨hf, rfl⟩ | h
    · exact hd
    · exact Or.inl hf
    · obtain ⟨rfl, rfl⟩ := Prod.mk.inj h
      exact Or.inr ⟨_, by decide +kernel, script⟩
  · decide +kernel

theorem staged_success : ∃ result, main sampleDigest stagedSite boundRun = .ok result := by
  have sorted : traversal stagedSite.node = stagedTree.nodes := by
    apply List.mergeSort_of_pairwise
    decide +kernel
  have root : checkRoot stagedSite = .ok () := by decide +kernel
  have absent : rootChild stagedSite (bytes releaseManifestName) = none := by
    change stagedTree.children.lookup (bytes releaseManifestName) = none
    decide +kernel
  have line : newline ∉ boundLine := by
    rw [boundLine, bytes_ofList _ (ascii_render _ _ (fits_identity 0 boundBuild))]
    decide +kernel
  have front : boundRun.stdout.dropLast = boundLine := List.dropLast_concat
  have revision : boundRevision (identityOf boundBuild).toJson = .ok boundBuild.sourceRevision := by
    decide +kernel
  have identity : readIdentity boundRun = .ok (boundBuild.sourceRevision, boundLine) := by
    simp only [readIdentity, front, bind_ok, ensure_ok, exists_const]
    refine ⟨⟨rfl, rfl⟩, ⟨List.getLast?_concat, line⟩, (identityOf boundBuild).toJson, ?_, _,
      revision, rfl⟩
    rw [boundLine, loads_identity]
    rfl
  have loop : (stagedTree.nodes.foldlM (addPath sampleDigest) .start).isOk = true := by
    decide +kernel
  cases progress : stagedTree.nodes.foldlM (addPath sampleDigest) .start with
  | error e =>
    rw [progress] at loop
    cases loop
  | ok p =>
    apply Exists.intro
    rw [main, check_bind_ok]
    refine ⟨root, ?_⟩
    change (ensure (rootChild stagedSite (bytes releaseManifestName) = none) _ >>= _) = _
    rw [check_bind_ok, ensure_ok]
    refine ⟨absent, ?_⟩
    rw [bind_ok]
    refine ⟨_, identity, ?_⟩
    rw [bind_ok]
    exact ⟨p, (congrArg _ sorted).trans progress, rfl⟩

theorem manifest_verifies_app : ∃ result, main sampleDigest stagedSite boundRun = .ok result ∧
    verifyRelease sampleDigest boundBuild
      { stagedSite with node := chmod directory0555 result } =
        .ok ⟨"ok", "host-monitoring", "0.9.10", "0123456789abcdef0123456789abcdef01234567", 5, 0⟩ := by
  obtain ⟨result, success⟩ := staged_success
  have short : ∀ item ∈ stagedTree.nodes, ∀ name ∈ item.1, name.length ≤ 255 := by decide +kernel
  have own : RunsOwnBinary stagedSite := ⟨_, _, rfl, rfl, by decide +kernel⟩
  exact ⟨result, success, manifest_verifies sampleDigest boundBuild stagedTree stagedSite boundRun
    boundLine result rfl short staged_layout (currentJson_ok boundBuild) rfl own success⟩

end HostMonitoring.Release.Writer
