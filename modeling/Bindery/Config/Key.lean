import Bindery.Text.Order

/-!
# Keys of the configuration

The configuration is a mapping with thirteen keys.  `Key.all` has them in the
order in which they are declared.  Where several keys are at fault, the one with
the greatest name is reported, and `Key.fromGreatest` has them in that order.
-/

namespace Bindery

/-- A key of the configuration. -/
inductive Key where
  /-- The package manager. -/
  | npm
  /-- The program that builds the book. -/
  | gitbook
  /-- The program that uploads the book. -/
  | gsutil
  /-- The package with the program that builds the book. -/
  | toolchainPackage
  /-- The directory of the sources. -/
  | docsDir
  /-- The directory of the built book. -/
  | outputDir
  /-- The address of the bucket. -/
  | bucket
  /-- The name of the book in the bucket. -/
  | product
  /-- Who may read the uploaded book. -/
  | acl
  /-- The dependency that is pinned. -/
  | compatPackage
  /-- The version it is pinned to. -/
  | compatVersion
  /-- Where the package manager keeps the modules of the program that builds the book. -/
  | nestedModulesPath
  /-- How many seconds a command may take, where 0 means any time. -/
  | timeoutSeconds
deriving DecidableEq, Repr

namespace Key

/-- All keys, as they are declared. -/
def all : List Key :=
  [.npm, .gitbook, .gsutil, .toolchainPackage, .docsDir, .outputDir, .bucket, .product, .acl,
    .compatPackage, .compatVersion, .nestedModulesPath, .timeoutSeconds]

/-- The name of a key. -/
def name : Key → String
  | npm => "npm"
  | gitbook => "gitbook"
  | gsutil => "gsutil"
  | toolchainPackage => "toolchain_package"
  | docsDir => "docs_dir"
  | outputDir => "output_dir"
  | bucket => "bucket"
  | product => "product"
  | acl => "acl"
  | compatPackage => "compat_package"
  | compatVersion => "compat_version"
  | nestedModulesPath => "nested_modules_path"
  | timeoutSeconds => "timeout_seconds"

/-- The key with a name. -/
def ofName? (s : Text) : Option Key := all.find? fun k => s == k.name

/-- All keys, the one with the greatest name first. -/
def fromGreatest : List Key := (Text.sortOn (fun k => k.name) all).reverse

/-! ## Names and keys -/

theorem mem_all (k : Key) : k ∈ all := by cases k <;> decide

theorem mem_fromGreatest (k : Key) : k ∈ fromGreatest := by
  rw [fromGreatest, List.mem_reverse, (Text.sortOn_perm _ all).mem_iff]
  exact mem_all k

theorem ofName?_name (k : Key) : ofName? k.name = some k := by cases k <;> decide +kernel

end Key
end Bindery
