import SchemaLedger.Wire

/-!
Settings of a registry.

* `Settings` groups what the registry does, where it keeps its files and what it reports.
* Every setting has a default, so that the empty description is complete.
-/

namespace SchemaLedger

/-- When artifacts are compiled. -/
inductive CompileMode where
  /-- Before a version is stored. -/
  | immediate
  /-- On request, after it is stored. -/
  | deferred
  deriving DecidableEq, Repr

namespace CompileMode

/-- The stored spelling. -/
def label : CompileMode → String
  | .immediate => "sync"
  | .deferred => "deferred"

/-- Both modes. -/
def all : List CompileMode := [.immediate, .deferred]

theorem label_find (m : CompileMode) : all.find? (·.label == m.label) = some m := by
  cases m <;> rfl

end CompileMode

/-- What the registry does. -/
structure RegistrySettings where
  /-- Artifacts are compiled and attached. -/
  uploadEnabled : Bool := false
  /-- Reads may be answered from a store's cache. -/
  cacheEnabled : Bool := true
  compileMode : CompileMode := .immediate
  /-- Distinguishes the ids drawn by running registries from each other. -/
  nodeId : UInt16 := 0
  deriving DecidableEq, Repr

/-- Where the registry keeps its files. -/
structure StorageSettings where
  path : String := "./registry"
  deriving DecidableEq, Repr

/-- What the registry reports. -/
structure LoggingSettings where
  filter : String := "info"
  deriving DecidableEq, Repr

/-- All settings. -/
structure Settings where
  registry : RegistrySettings := {}
  storage : StorageSettings := {}
  logging : LoggingSettings := {}
  deriving DecidableEq, Repr

namespace Wire

open Json

/-- A compile mode by its label. -/
def compileMode : Codec CompileMode :=
  .choice CompileMode.label CompileMode.all CompileMode.label_find

/-- A number of 16 bits. -/
def shortWord : Codec UInt16 :=
  .number (Word.limit 16) "u16" UInt16.toNat UInt16.ofNat fun _ => UInt16.ofNat_toNat

/-- What the registry does. -/
def registrySettings : Codec RegistrySettings :=
  .record "RegistryConfig"
    (.cons "upload_enabled" (.defaulted false) .flag <|
      .cons "cache_enabled" (.defaulted true) .flag <|
      .cons "dependency_mode" (.defaulted .immediate) compileMode <|
      .cons "node_id" (.defaulted 0) shortWord .nil)
    (fun s => (s.uploadEnabled, s.cacheEnabled, s.compileMode, s.nodeId, ()))
    (fun (uploadEnabled, cacheEnabled, compileMode, nodeId, ()) =>
      ⟨uploadEnabled, cacheEnabled, compileMode, nodeId⟩)
    fun _ => rfl

/-- Where the registry keeps its files. -/
def storageSettings : Codec StorageSettings :=
  .record "StorageConfig"
    (.cons "path" (.defaulted "./registry") (.text "path string") .nil)
    (fun s => (s.path, ()))
    (fun (path, ()) => ⟨path⟩)
    fun _ => rfl

/-- What the registry reports. -/
def loggingSettings : Codec LoggingSettings :=
  .record "LoggingConfig"
    (.cons "filter" (.defaulted "info") text .nil)
    (fun s => (s.filter, ()))
    (fun (filter, ()) => ⟨filter⟩)
    fun _ => rfl

/-- All settings. -/
def settings : Codec Settings :=
  .record "SchemaConfig"
    (.cons "registry" (.defaulted {}) registrySettings <|
      .cons "storage" (.defaulted {}) storageSettings <|
      .cons "logging" (.defaulted {}) loggingSettings .nil)
    (fun s => (s.registry, s.storage, s.logging, ()))
    (fun (registry, storage, logging, ()) => ⟨registry, storage, logging⟩)
    fun _ => rfl

end Wire

end SchemaLedger
