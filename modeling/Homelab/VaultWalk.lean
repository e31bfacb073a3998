import Homelab.VaultAdapter
import Mathlib.Data.List.Lattice
import Mathlib.Data.List.TakeWhile

/-! What a walk through the trees of a Vault finds: every secret down to the greatest depth, once, when all requests
to list a folder succeed. That one of them has failed is not reported. -/
namespace Homelab
open Js Dialogue

/-! ### Trees of keys -/

inductive KvNode
  | secret (name : JsString)
  | folder (name : JsString) (nodes : List KvNode)

namespace KvNode

def name : KvNode → JsString
  | secret name => name
  | folder name _ => name

/-- As it is listed -/
def key : KvNode → JsString
  | secret name => name
  | folder name _ => name ++ js "/"

end KvNode

/-- The names are not empty and have no slash, and no two keys are the same, here and in all folders. -/
inductive TidyFolder : List KvNode → Prop
  | mk {nodes : List KvNode} (keys : (nodes.map KvNode.key).Nodup)
      (names : ∀ node ∈ nodes, node.name ≠ [] ∧ 0x2F ∉ node.name)
      (folders : ∀ name sub, .folder name sub ∈ nodes → TidyFolder sub) : TidyFolder nodes

/-- The keys of a mount -/
structure KvTree where
  nodes : List KvNode
  tidy : TidyFolder nodes

/-- The nodes are those of the folder at this path below the nodes at `pre`. -/
inductive FolderAt : JsString → List KvNode → JsString → List KvNode → Prop
  | here {pre : JsString} {nodes : List KvNode} : FolderAt pre nodes pre nodes
  | under {pre name path : JsString} {nodes sub found : List KvNode} (h : .folder name sub ∈ nodes)
      (hin : FolderAt (pre ++ name ++ js "/") sub path found) : FolderAt pre nodes path found

/-- There is a secret of this path, that many folders below the nodes at `pre`. -/
inductive SecretAt : JsString → List KvNode → ℕ → JsString → Prop
  | here {pre name : JsString} {nodes : List KvNode} (h : .secret name ∈ nodes) :
    SecretAt pre nodes 0 (pre ++ name)
  | under {pre name path : JsString} {nodes sub : List KvNode} {depth : ℕ} (h : .folder name sub ∈ nodes)
      (hin : SecretAt (pre ++ name ++ js "/") sub depth path) : SecretAt pre nodes (depth+1) path

/-- The paths that a node gives, where `below` are those of a folder -/
def KvNode.walkedPaths (below : JsString → List KvNode → List JsString) (pre : JsString) :
    KvNode → List JsString
  | secret name => [pre ++ name]
  | folder name sub => (pre ++ name ++ js "/") :: below (pre ++ name ++ js "/") sub

/-- The paths of a walk through a folder, with those of the folders in it -/
def walkedPaths : ℕ → JsString → List KvNode → List JsString
  | 0, _, _ => []
  | levels+1, pre, nodes => nodes.flatMap (KvNode.walkedPaths (walkedPaths levels) pre)

def KvNode.secretPaths (below : JsString → List KvNode → List JsString) (pre : JsString) :
    KvNode → List JsString
  | secret name => [pre ++ name]
  | folder name sub => below (pre ++ name ++ js "/") sub

/-- The paths of the secrets alone -/
def secretPaths : ℕ → JsString → List KvNode → List JsString
  | 0, _, _ => []
  | levels+1, pre, nodes => nodes.flatMap (KvNode.secretPaths (secretPaths levels) pre)

theorem mem_secretPaths {levels : ℕ} {pre path : JsString} {nodes : List KvNode} :
    path ∈ secretPaths levels pre nodes ↔ ∃ depth, depth < levels ∧ SecretAt pre nodes depth path := by
  induction levels generalizing pre nodes with
  | zero => exact iff_of_false List.not_mem_nil (by rintro ⟨depth, hdepth, -⟩; omega)
  | succ levels ih =>
    rw [secretPaths, List.mem_flatMap]
    constructor
    · rintro ⟨node, hnode, hpath⟩
      cases node with
      | secret name =>
        rw [List.mem_singleton.mp hpath]
        exact ⟨0, by omega, .here hnode⟩
      | folder name sub =>
        obtain ⟨depth, hdepth, hat⟩ := ih.mp hpath
        exact ⟨depth+1, by omega, .under hnode hat⟩
    · rintro ⟨depth, hdepth, hat⟩
      cases hat with
      | here hnode => exact ⟨_, hnode, List.mem_singleton_self _⟩
      | under hnode hat => exact ⟨_, hnode, ih.mpr ⟨_, by omega, hat⟩⟩

theorem pre_of_secretPath {levels : ℕ} {pre path : JsString} {nodes : List KvNode}
    (h : path ∈ secretPaths levels pre nodes) : ∃ rest, path = pre ++ rest := by
  obtain ⟨depth, -, hat⟩ := mem_secretPaths.mp h
  clear h
  induction hat with
  | here hnode => exact ⟨_, rfl⟩
  | under hnode hin ih =>
    obtain ⟨rest, rfl⟩ := ih
    exact ⟨_, by rw [List.append_assoc, List.append_assoc]⟩

/-- The first key of a path below `pre` -/
def firstKey (pre path : JsString) : JsString :=
  let rest := path.drop pre.length
  if 0x2F ∈ rest then rest.takeWhile (· ≠ 0x2F) ++ js "/" else rest

theorem firstKey_secret {pre name : JsString} (hname : 0x2F ∉ name) : firstKey pre (pre ++ name) = name := by
  rw [firstKey, List.drop_left]
  exact if_neg hname

theorem firstKey_folder {pre name rest : JsString} (hname : 0x2F ∉ name) :
    firstKey pre (pre ++ name ++ js "/" ++ rest) = name ++ js "/" := by
  have hassoc : pre ++ name ++ js "/" ++ rest = pre ++ (name ++ 0x2F :: rest) := by
    simp [js]
  have hmem : (0x2F : CodeUnit) ∈ name ++ 0x2F :: rest := by simp
  have htake : (name ++ 0x2F :: rest).takeWhile (· ≠ 0x2F) = name := by
    have hbefore : ∀ c ∈ name, decide (c ≠ 0x2F) = true := by
      intro c hc
      apply decide_eq_true
      rintro rfl
      exact hname hc
    rw [List.takeWhile_append_of_pos hbefore, List.takeWhile_cons_of_neg (by simp), List.append_nil]
  rw [hassoc, firstKey, List.drop_left]
  simp only [if_pos hmem, htake]

/-- No path of a secret is found twice. -/
theorem secretPaths_nodup {levels : ℕ} {pre : JsString} {nodes : List KvNode} (h : TidyFolder nodes) :
    (secretPaths levels pre nodes).Nodup := by
  induction levels generalizing pre nodes with
  | zero => exact List.nodup_nil
  | succ levels ih =>
    obtain ⟨hkeys, hnames, hfolders⟩ := h
    rw [secretPaths, List.nodup_flatMap]
    constructor
    · intro node hnode
      cases node with
      | secret name => exact List.nodup_singleton _
      | folder name sub => exact ih (hfolders name sub hnode)
    -- the first key below the prefix tells which node a path comes from, and no two have the same
    · have hfirst {node : KvNode} {path : JsString} (hnode : node ∈ nodes)
          (hpath : path ∈ node.secretPaths (secretPaths levels) pre) : firstKey pre path = node.key := by
        cases node with
        | secret name =>
          rw [List.mem_singleton.mp hpath]
          exact firstKey_secret (hnames _ hnode).2
        | folder name sub =>
          obtain ⟨rest, rfl⟩ := pre_of_secretPath hpath
          exact firstKey_folder (hnames _ hnode).2
      refine (List.pairwise_map.mp hkeys).imp_of_mem fun hnode hnode' hne => ?_
      intro path hpath hpath'
      exact hne ((hfirst hnode hpath).symm.trans (hfirst hnode' hpath'))

theorem isFolderKey_folder (s : JsString) : isFolderKey (s ++ js "/") = true := by
  simp [isFolderKey, js]

theorem isFolderKey_secret {name : JsString} (hne : name ≠ []) (hslash : 0x2F ∉ name) (pre : JsString) :
    isFolderKey (pre ++ name) = false := by
  rw [isFolderKey, decide_eq_false_iff_not, List.getLast?_append_of_ne_nil _ hne]
  intro hlast
  exact hslash (List.mem_of_getLast? hlast)

/-- The secrets are what the walk finds, but for the folders. -/
theorem filter_walkedPaths {levels : ℕ} {pre : JsString} {nodes : List KvNode} (h : TidyFolder nodes) :
    (walkedPaths levels pre nodes).filter (fun p => !isFolderKey p) = secretPaths levels pre nodes := by
  induction levels generalizing pre nodes with
  | zero => rfl
  | succ levels ih =>
    obtain ⟨-, hnames, hfolders⟩ := h
    rw [walkedPaths, secretPaths, List.filter_flatMap]
    apply List.flatMap_congr
    intro node hnode
    obtain ⟨hne, hslash⟩ := hnames node hnode
    cases node with
    | secret name =>
      have hkey : isFolderKey (pre ++ name) = false := isFolderKey_secret hne hslash pre
      simp only [KvNode.walkedPaths, KvNode.secretPaths, List.filter_cons, hkey, Bool.not_false, if_true,
        List.filter_nil]
    | folder name sub =>
      simp only [KvNode.walkedPaths, KvNode.secretPaths, List.filter_cons, isFolderKey_folder, Bool.not_true,
        Bool.false_eq_true, if_false]
      exact ih (hfolders name sub hnode)

/-! ### Walks -/

section Walks

/-- The answer is none that lists keys. -/
def Fails (x : Exchange KvAnswer) : Prop :=
  ∀ keys : List JsString, answeredKeys x.ask.url x.answer ≠ .ok (keys.map .str)

variable (vaultAddr token : JsString) (mounts : List JsString) (trees : JsString → KvTree)

/-- A request to list a folder of one of the mounts fails, or it is answered with the keys of the folder. -/
def ServesTrees (q : KvRequest) (a : KvAnswer q) : Prop :=
  ∀ mount ∈ mounts, ∀ pre nodes, FolderAt [] (trees mount).nodes pre nodes → q.url =
    listUrl vaultAddr mount pre →
    Fails ⟨q, a⟩ ∨ answeredKeys q.url a = .ok (nodes.map fun node => .str node.key)

variable {vaultAddr token mounts trees} {mount : JsString} {log : KvLog}

theorem FolderAt.trans {pre path name : JsString} {nodes found sub : List KvNode}
    (h : FolderAt pre nodes path found)
    (hsub : .folder name sub ∈ found) : FolderAt pre nodes (path ++ name ++ js "/") sub := by
  induction h with
  | here => exact .under hsub .here
  | under hnode _ ih => exact .under hnode (ih hsub)

theorem fullKey_eq (pre key : JsString) : fullKey pre key = pre ++ key := by
  rw [fullKey]
  split_ifs with h
  · rfl
  · rw [not_not.mp h, List.nil_append]

/-- The loop over the keys of a folder, when each folder in it is walked so -/
theorem visitKeys_talks {May : ∀ q, KvAnswer q → Prop} {recur : JsString → KvWalk (List JsString)}
    {below : JsString → List KvNode → List JsString} {pre : JsString} {nodes : List KvNode}
    (hnames : ∀ node ∈ nodes, node.name ≠ [] ∧ 0x2F ∉ node.name)
    (hrecur : ∀ name sub, .folder name sub ∈ nodes →
    ∀ log r, Talks May (recur (pre ++ name ++ js "/")) log r →
      (∀ x ∈ log, ¬ Fails x) → r = .ok (below (pre ++ name ++ js "/") sub))
    {r : Except JsString (List JsString)}
    (h : Talks May (visitKeys recur pre (nodes.map fun node => .str node.key)) log r)
    (hanswered : ∀ x ∈ log, ¬ Fails x) : r = .ok (nodes.flatMap (KvNode.walkedPaths below pre)) := by
  induction nodes generalizing log r with
  | nil => exact (talks_done.mp h).2
  | cons node nodes ih =>
    obtain ⟨hne, hslash⟩ := hnames node List.mem_cons_self
    have hrest {log : KvLog} {r : Except JsString (List JsString)}
        (h : Talks May (visitKeys recur pre (nodes.map fun node => .str node.key)) log r)
        (hanswered : ∀ x ∈ log, ¬ Fails x) : r = .ok (nodes.flatMap (KvNode.walkedPaths below pre)) :=
      ih (fun n hn => hnames n (List.mem_cons_of_mem _ hn))
        (fun name sub hsub => hrecur name sub (List.mem_cons_of_mem _ hsub)) h hanswered
    rw [List.map_cons, visitKeys] at h
    -- a secret asks nothing of its own; a folder is walked before the keys after it
    cases node with
    | secret name =>
      have hkey : isFolderKey (KvNode.secret name).key = false := isFolderKey_secret hne hslash []
      rw [hkey, if_neg Bool.false_ne_true] at h
      rcases talks_bind.mp h with ⟨e, hothers, -⟩ | ⟨others, first, second, hothers, hdone, rfl⟩
      · cases hrest hothers hanswered
      · cases hrest hothers fun x hx => hanswered x (List.mem_append_left _ hx)
        rw [fullKey_eq] at hdone
        exact (talks_done.mp hdone).2
    | folder name sub =>
      have hkey : isFolderKey (KvNode.folder name sub).key = true := isFolderKey_folder name
      have hfull : fullKey pre (KvNode.folder name sub).key = pre ++ name ++ js "/" :=
        (fullKey_eq _ _).trans (List.append_assoc ..).symm
      rw [hkey, if_pos rfl, hfull] at h
      have hchildren := hrecur name sub List.mem_cons_self
      rcases talks_bind.mp h with ⟨e, hwalk, -⟩ | ⟨children, first, second, hwalk, hloop, rfl⟩
      · cases hchildren _ _ hwalk hanswered
      cases hchildren _ _ hwalk fun x hx => hanswered x (List.mem_append_left _ hx)
      have hsecond : ∀ x ∈ second, ¬ Fails x := fun x hx => hanswered x (List.mem_append_right _ hx)
      rcases talks_bind.mp hloop with ⟨e, hothers, -⟩ | ⟨others, third, last, hothers, hdone, rfl⟩
      · cases hrest hothers hsecond
      · cases hrest hothers fun x hx => hsecond x (List.mem_append_left _ hx)
        exact (talks_done.mp hdone).2

/-- A walk whose requests all succeed finds all paths of the folder. -/
theorem listPaths_talks (hmount : mount ∈ mounts) {levels : ℕ} {pre : JsString} {nodes : List KvNode}
    (htidy : TidyFolder nodes) (hfolder : FolderAt [] (trees mount).nodes pre nodes)
    {r : Except JsString (List JsString)}
    (h : Talks (ServesTrees vaultAddr mounts trees)
    (listPathsRecursive vaultAddr token mount levels pre) log r)
    (hanswered : ∀ x ∈ log, ¬ Fails x) : r = .ok (walkedPaths levels pre nodes) := by
  induction levels generalizing pre nodes log r with
  | zero => exact (talks_done.mp h).2
  | succ levels ih =>
    obtain ⟨-, hnames, hfolders⟩ := htidy
    -- the one request of this level, and the walks of the folders that it lists
    obtain ⟨answer, rest, hmay, hloop, rfl⟩ := talks_ask.mp h
    have hkeys : answeredKeys (listUrl vaultAddr mount pre) answer =
      .ok (nodes.map fun node => .str node.key) :=
      (hmay mount hmount pre nodes hfolder rfl).resolve_left (hanswered _ List.mem_cons_self)
    simp only [hkeys, done_bind] at hloop
    refine visitKeys_talks hnames ?_ hloop fun x hx => hanswered x (List.mem_cons_of_mem _ hx)
    intro name sub hsub log r hwalk hlog
    exact ih (hfolders name sub hsub) (hfolder.trans hsub) hwalk hlog

/-- The secrets of the mounts, when no request fails -/
def foundSecrets (trees : JsString → KvTree) (levels : ℕ) (mounts : List JsString) : List SecretPath :=
  mounts.flatMap fun mount => (secretPaths levels [] (trees mount).nodes).map (SecretPath.mk mount)

/-- What is found does not throw, and it is all there is when no request fails. -/
theorem walkMounts_talks {levels : ℕ} {walked : List JsString} (hwalked : ∀ mount ∈ walked, mount ∈ mounts)
    {r : Except JsString (List SecretPath)} (h : Talks (ServesTrees vaultAddr mounts trees)
      (walkMounts (fun mount => listPathsRecursive vaultAddr token mount levels []) walked) log r) :
    ∃ found, r = .ok found ∧ ((∀ x ∈ log, ¬ Fails x) → found = foundSecrets trees levels walked) := by
  induction walked generalizing log r with
  | nil =>
    obtain ⟨-, rfl⟩ := talks_done.mp h
    exact ⟨[], rfl, fun _ => rfl⟩
  | cons mount walked ih =>
    have hmount := hwalked mount List.mem_cons_self
    have hrest : ∀ m ∈ walked, m ∈ mounts := fun m hm => hwalked m (List.mem_cons_of_mem _ hm)
    rcases talks_bind.mp h with ⟨e, hwalk, -⟩ | ⟨outcome, first, second, hwalk, hthen, rfl⟩
    -- `attempt` catches what the listing throws, so the loop goes on
    · obtain ⟨r', -, hr'⟩ := talks_attempt.mp hwalk
      cases hr'
    obtain ⟨r', hlist, hr'⟩ := talks_attempt.mp hwalk
    cases hr'
    rcases talks_bind.mp hthen with ⟨e, hloop, -⟩ | ⟨others, third, last, hloop, hdone, rfl⟩
    · obtain ⟨found, hfound, -⟩ := ih hrest hloop
      cases hfound
    obtain ⟨found, hfound, hcomplete⟩ := ih hrest hloop
    cases hfound
    -- a mount whose listing throws is left out, which needs a request that fails
    cases outcome with
    | error e =>
      obtain ⟨rfl, rfl⟩ := talks_done.mp hdone
      refine ⟨others, rfl, fun hanswered => ?_⟩
      cases listPaths_talks hmount (trees mount).tidy .here hlist fun x hx =>
        hanswered x (List.mem_append_left _ hx)
    | ok paths =>
      obtain ⟨rfl, rfl⟩ := talks_done.mp hdone
      refine ⟨_, rfl, fun hanswered => ?_⟩
      have hpaths := listPaths_talks hmount (trees mount).tidy .here hlist fun x hx =>
        hanswered x (List.mem_append_left _ hx)
      cases hpaths
      rw [filter_walkedPaths (trees mount).tidy, hcomplete fun x hx => hanswered x (by simp [hx])]
      rfl

/-- All requests list keys. -/
theorem asks_list (levels : ℕ) (pre : JsString) :
    (listPathsRecursive vaultAddr token mount levels pre).Asks fun q => q.method = js "LIST" := by
  have hloop {recur : JsString → KvWalk (List JsString)} (hrecur : ∀ pre, (recur pre).Asks fun q =>
      q.method = js "LIST") (pre : JsString) (keys : List JsValue) :
      (visitKeys recur pre keys).Asks fun q => q.method = js "LIST" := by
    induction keys with
    | nil => trivial
    | cons key keys ih =>
      cases key with
      | str key =>
        rw [visitKeys]
        split_ifs
        · exact asks_bind (hrecur _) fun children => asks_bind ih fun others => trivial
        · exact asks_bind ih fun others => trivial
      | _ => trivial
  induction levels generalizing pre with
  | zero => trivial
  | succ levels ih =>
    refine ⟨rfl, fun answer => ?_⟩
    cases hkeys : answeredKeys (listUrl vaultAddr mount pre) answer with
    | error message =>
      simp only [done_bind, hkeys]
      trivial
    | ok keys =>
      simp only [done_bind, hkeys]
      exact hloop ih pre keys

theorem asks_walkMounts (levels : ℕ) (mounts : List JsString) :
    (walkMounts (fun mount => listPathsRecursive vaultAddr token mount levels []) mounts).Asks
      fun q => q.method = js "LIST" := by
  induction mounts with
  | nil => trivial
  | cons mount mounts ih =>
    refine asks_bind (asks_attempt (asks_list levels [])) fun walked => asks_bind ih fun others => ?_
    cases walked with
    | error e => trivial
    | ok paths => trivial

end Walks

/-! ### Complete or degraded -/

section Complete

variable (trees : JsString → KvTree) (maxDepth : ℤ) (mounts : List JsString)

/-- There is a secret of this path in one of the mounts, not deeper than it is looked for. -/
def IsSecret (p : SecretPath) : Prop :=
  p.mount ∈ mounts ∧ ∃ depth : ℕ, depth ≤ maxDepth ∧ SecretAt [] (trees p.mount).nodes depth p.path

/-- No request fails that is for a folder in which the secret lies. -/
def FoldersAnswer (vaultAddr : JsString) (log : KvLog) (p : SecretPath) : Prop :=
  ∀ x ∈ log, Fails x → ∀ pre rest, p.path = pre ++ rest → x.ask.url ≠ listUrl vaultAddr p.mount pre

/-- The result has one entity and one edge for each secret, and nothing else, when all requests succeed. When one
fails, it says so, and still has the secrets that this does not affect. -/
structure CompleteOrDegraded (vaultAddr now : JsString) (vault : JsValue) (log : KvLog)
    (result : VaultAdapterResult) : Prop where
  complete : (∀ x ∈ log, ¬ Fails x) → ∃ secrets : List SecretPath, secrets.Nodup ∧
    (∀ p, p ∈ secrets ↔ IsSecret trees maxDepth mounts p) ∧
      result.entities = secrets.map (SecretPath.entity now) ∧ result.edges =
        secrets.map (SecretPath.edge now vault)
  degraded : (∃ x ∈ log, Fails x) → result.degraded = true ∧
    ∀ p, IsSecret trees maxDepth mounts p → FoldersAnswer vaultAddr log p →
      p.entity now ∈ result.entities ∧ p.edge now vault ∈ result.edges

/-- A run that only lists, does not throw, and is complete or degraded -/
def WalksVault (vaultAddr now : JsString) (vault : JsValue) (log : KvLog)
    (r : Except JsString VaultAdapterResult) : Prop :=
  (∀ x ∈ log, x.ask.method = js "LIST") ∧
    ∃ result, r = .ok result ∧ CompleteOrDegraded trees maxDepth mounts vaultAddr now vault log result

variable {trees maxDepth mounts}

theorem mem_foundSecrets {p : SecretPath} :
    p ∈ foundSecrets trees (maxDepth+1).toNat mounts ↔ IsSecret trees maxDepth mounts p := by
  rw [foundSecrets, IsSecret, List.mem_flatMap]
  constructor
  · rintro ⟨mount, hmount, hp⟩
    obtain ⟨path, hpath, rfl⟩ := List.mem_map.mp hp
    obtain ⟨depth, hdepth, hat⟩ := mem_secretPaths.mp hpath
    exact ⟨hmount, depth, by omega, hat⟩
  · rintro ⟨hmount, depth, hdepth, hat⟩
    exact ⟨p.mount, hmount, List.mem_map.mpr ⟨p.path, mem_secretPaths.mpr ⟨depth, by omega, hat⟩, rfl⟩⟩

/-- The secrets are found once when no mount that has some comes twice. -/
theorem foundSecrets_nodup : (foundSecrets trees (maxDepth+1).toNat mounts).Nodup ↔
    mounts.Pairwise fun m m' => m = m' → ∀ path, ¬ IsSecret trees maxDepth mounts ⟨m, path⟩ := by
  have hmount (mount : JsString) :
      ((secretPaths (maxDepth+1).toNat [] (trees mount).nodes).map (SecretPath.mk mount)).Nodup :=
    (secretPaths_nodup (trees mount).tidy).map fun a b h => congrArg SecretPath.path h
  rw [foundSecrets, List.nodup_flatMap, and_iff_right fun mount _ => hmount mount]
  apply List.Pairwise.iff_of_mem
  intro m m' hm hm'
  constructor
  -- a mount that comes twice gives each of its secrets twice
  · rintro hdisjoint rfl path hsecret
    obtain ⟨mount, -, hp⟩ := List.mem_flatMap.mp (mem_foundSecrets.mpr hsecret)
    obtain ⟨path', hpath, heq⟩ := List.mem_map.mp hp
    cases heq
    exact hdisjoint (List.mem_map_of_mem hpath) (List.mem_map_of_mem hpath)
  · intro h p hp hp'
    obtain ⟨path, hpath, rfl⟩ := List.mem_map.mp hp
    obtain ⟨path', hpath', heq⟩ := List.mem_map.mp hp'
    cases heq
    have hfound : (⟨m, path⟩ : SecretPath) ∈ foundSecrets trees (maxDepth+1).toNat mounts :=
      List.mem_flatMap.mpr ⟨m, hm, List.mem_map_of_mem hpath⟩
    exact h rfl path (mem_foundSecrets.mp hfound)

theorem SecretPath.entity_injective (now : JsString) : Function.Injective (SecretPath.entity now) := by
  intro p q h
  have hname : p.fullPath = q.fullPath := JsValue.str.inj (congrArg (getOwn (js "name")) h)
  have hattributes := JsValue.obj.inj (congrArg (getOwn (js "attributes")) h)
  have hmount : p.mount = q.mount := JsValue.str.inj (congrArg (getOwn (js "mount")) hattributes)
  obtain ⟨mount, path⟩ := p
  obtain ⟨mount', path'⟩ := q
  cases hmount
  have hpath : path = path' := List.append_cancel_left hname
  rw [hpath]

/-- The graph has a Vault, of which this is the address, and there is a token for it. -/
structure VaultConfigured (doc : GraphDocument) (env : VaultEnvironment) (vault : JsValue)
    (vaultAddr : JsString) :
    Prop where
  first : ((entitiesByKind (js "service") doc).filter
    fun e => equalsText (js "secrets") (attributeOf (js "role") e)).head? = some vault
  address : deriveVaultAddress vault env = some vaultAddr
  token : env.vaultToken.getD [] ≠ []

theorem discoverVault_eq {doc : GraphDocument} {env : VaultEnvironment} {vault : JsValue}
    {vaultAddr : JsString}
    (h : VaultConfigured doc env vault vaultAddr) (now : JsString) (maxDepth : ℤ) :
    discoverVault now env maxDepth doc =
      (walkMounts (fun mount => listPathsRecursive vaultAddr (env.vaultToken.getD []) mount (maxDepth+1).toNat [])
        (extractKvMounts vault)).bind fun found => .done ⟨found.map (SecretPath.entity now),
          found.map (SecretPath.edge now vault), found.length, false, none⟩ := by
  obtain ⟨hfirst, haddress, htoken⟩ := h
  obtain ⟨rest, hvault⟩ := List.head?_eq_some_iff.mp hfirst
  obtain ⟨c, cs, htext⟩ := List.exists_cons_of_ne_nil htoken
  simp only [discoverVault, hvault, haddress, htext]
  rfl

/-- A run is complete or degraded exactly when no request fails and no mount that has secrets comes twice. -/
theorem walksVault_iff (doc : GraphDocument) (env : VaultEnvironment) (vault : JsValue)
    (vaultAddr now : JsString)
    (maxDepth : ℤ) (trees : JsString → KvTree) (hvault : VaultConfigured doc env vault vaultAddr) (log : KvLog)
    (r : Except JsString VaultAdapterResult)
    (h : Talks (ServesTrees vaultAddr (extractKvMounts vault) trees)
    (discoverVault now env maxDepth doc) log r) :
    WalksVault trees maxDepth (extractKvMounts vault) vaultAddr now vault log r ↔
      (∀ x ∈ log, ¬ Fails x) ∧ (extractKvMounts vault).Pairwise fun m m' =>
        m = m' → ∀ path, ¬ IsSecret trees maxDepth (extractKvMounts vault) ⟨m, path⟩ := by
  have hasks : (discoverVault now env maxDepth doc).Asks fun q => q.method = js "LIST" := by
    rw [discoverVault_eq hvault]
    exact asks_bind (asks_walkMounts _ _) fun found => trivial
  have hlist : ∀ x ∈ log, x.ask.method = js "LIST" := fun x hx => (hasks.of_mem h x hx).1
  rw [discoverVault_eq hvault] at h
  rcases talks_bind.mp h with ⟨e, hwalk, -⟩ | ⟨found, first, second, hwalk, hdone, rfl⟩
  · obtain ⟨found, hfound, -⟩ := walkMounts_talks (fun mount hmount => hmount) hwalk
    cases hfound
  obtain ⟨rfl, rfl⟩ := talks_done.mp hdone
  obtain ⟨found', hfound, hcomplete⟩ := walkMounts_talks (fun mount hmount => hmount) hwalk
  cases hfound
  rw [List.append_nil] at hlist ⊢
  rw [← foundSecrets_nodup]
  constructor
  · rintro ⟨-, result, hresult, hwalks⟩
    cases hresult
    have hanswered : ∀ x ∈ first, ¬ Fails x := by
      intro x hx hfails
      -- the result never says that it is degraded
      exact absurd (hwalks.degraded ⟨x, hx, hfails⟩).1 Bool.false_ne_true
    obtain ⟨secrets, hnodup, -, hentities, -⟩ := hwalks.complete hanswered
    -- the entities tell the secrets apart, so those that were found are the ones of the statement
    have hsecrets := List.map_injective_iff.mpr (SecretPath.entity_injective now) hentities
    rw [← hcomplete hanswered, hsecrets]
    exact ⟨hanswered, hnodup⟩
  · rintro ⟨hanswered, hnodup⟩
    refine ⟨hlist, _, rfl, ?_, ?_⟩
    · intro _
      rw [hcomplete hanswered]
      exact ⟨_, hnodup, fun p => mem_foundSecrets, rfl, rfl⟩
    · rintro ⟨x, hx, hfails⟩
      exact absurd hfails (hanswered x hx)

end Complete

/-! A Vault with one secret -/

def vaultEntity : JsValue :=
  .obj [(js "id", .str (js "service:vault")), (js "kind", .str (js "service")),
    (js "name", .str (js "vault")),
    (js "attributes", .obj [(js "role", .str (js "secrets")), (js "vault_addr", .str (js "http://vault:8200"))]),
    (js "source", .str (js "docker")), (js "discovered_at", .str (js "t")), (js "last_seen", .str (js "t")),
    (js "status", .str (js "active"))]

def vaultEnvironment : VaultEnvironment := ⟨none, some (js "hvs.token")⟩

def oneSecret : KvTree where
  nodes := [.secret (js "db")]
  tidy := .mk (by decide) (by decide) (by intro name sub h; simp at h)

theorem vaultConfigured : VaultConfigured ⟨[vaultEntity], []⟩ vaultEnvironment vaultEntity (js "http://vault:8200") where
  first := by
    have hfilter : (entitiesByKind (js "service") ⟨[vaultEntity], []⟩).filter
      (fun e => equalsText (js "secrets") (attributeOf (js "role") e)) = [vaultEntity] := rfl
    rw [hfilter]
    rfl
  address := rfl
  token := by decide

/-- A walk in which the one request is answered so -/
def oneRequest (answer : Except JsString KvResponse) : KvLog :=
  [⟨listRequest (js "http://vault:8200") (js "hvs.token") (js "secret") [], answer⟩]

theorem oneSecret_serves (answer : Except JsString KvResponse)
    (h : Fails ⟨listRequest (js "http://vault:8200") (js "hvs.token") (js "secret") [], answer⟩ ∨
      answeredKeys (listUrl (js "http://vault:8200") (js "secret") []) answer = .ok [.str (js "db")]) :
    ServesTrees (js "http://vault:8200") (extractKvMounts vaultEntity) (fun _ => oneSecret)
      (listRequest (js "http://vault:8200") (js "hvs.token") (js "secret") []) answer := by
  intro mount _ pre nodes hfolder _
  cases hfolder with
  | here => exact h
  | under hnode _ => cases hnode with
    | tail _ hnode => cases hnode

theorem walksVault_once : ∃ r, WalksVault (fun _ => oneSecret) 5 (extractKvMounts vaultEntity) (js "http://vault:8200")
    (js "t") vaultEntity (oneRequest (.ok ⟨200, true,
      .ok (.obj [(js "data", .obj [(js "keys", .arr [.str (js "db")])])])⟩)) r := by
  refine ⟨_, (walksVault_iff ⟨[vaultEntity], []⟩ vaultEnvironment vaultEntity
    (js "http://vault:8200") (js "t") 5
    (fun _ => oneSecret) vaultConfigured _ _ (.ask (oneSecret_serves _ (.inr rfl)) (.done _))).mpr ⟨?_, ?_⟩⟩
  · intro x hx hfails
    obtain rfl := List.mem_singleton.mp hx
    exact hfails [js "db"] rfl
  · exact List.pairwise_singleton _ _

/-- A Vault that is sealed is taken for one without secrets. -/
theorem failure_unreported : ¬ ∀ (doc : GraphDocument) (env : VaultEnvironment) (vault : JsValue)
    (vaultAddr now : JsString) (maxDepth : ℤ) (trees : JsString → KvTree), VaultConfigured doc env
    vault vaultAddr →
      ∀ (log : KvLog) (r : Except JsString VaultAdapterResult),
        Talks (ServesTrees vaultAddr (extractKvMounts vault) trees)
          (discoverVault now env maxDepth doc) log r →
          WalksVault trees maxDepth (extractKvMounts vault) vaultAddr now vault log r := by
  intro h
  have hfails : Fails ⟨listRequest (js "http://vault:8200") (js "hvs.token") (js "secret") [],
      .ok ⟨503, false, .error (js "sealed")⟩⟩ := by
    intro keys heq
    cases heq
  obtain ⟨-, result, hresult, hwalks⟩ := h ⟨[vaultEntity], []⟩ vaultEnvironment vaultEntity (js "http://vault:8200")
    (js "t") 5 (fun _ => oneSecret) vaultConfigured (oneRequest (.ok ⟨503, false, .error (js "sealed")⟩)) _
      (.ask (oneSecret_serves _ (.inl hfails)) (.done _))
  cases hresult
  exact absurd (hwalks.degraded ⟨_, List.mem_cons_self, hfails⟩).1 Bool.false_ne_true

end Homelab
