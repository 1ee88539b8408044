/-!
# Events

What a run reports about itself. An event has a level and a source: the part of the program
that it is about.
-/

namespace CollectionSchema

/-- How important an event is. -/
inductive Level where
  | error
  | warn
  | info
  | debug
  | trace
deriving DecidableEq, Repr

namespace Level

def name : Level → String
  | error => "ERROR"
  | warn => "WARN"
  | info => "INFO"
  | debug => "DEBUG"
  | trace => "TRACE"

/-- How much is said at a level: more with every level. -/
def verbosity : Level → Nat
  | error => 1
  | warn => 2
  | info => 3
  | debug => 4
  | trace => 5

end Level

inductive Event where
  | runStarted
  | descriptorWarning
  | descriptorLoaded
  | declarationsLoaded
  | annotationIgnored
  | registryCollected
  | recordDeferred
  | schemaBuilt
  | documentRendered
  | documentWritten
  | aggregateWritten
  | runFinished
deriving DecidableEq, Repr

namespace Event

def name : Event → String
  | runStarted => "run_started"
  | descriptorWarning => "descriptor_warning"
  | descriptorLoaded => "descriptor_loaded"
  | declarationsLoaded => "declarations_loaded"
  | annotationIgnored => "annotation_ignored"
  | registryCollected => "registry_collected"
  | recordDeferred => "record_deferred"
  | schemaBuilt => "schema_built"
  | documentRendered => "document_rendered"
  | documentWritten => "document_written"
  | aggregateWritten => "aggregate_written"
  | runFinished => "run_finished"

def level : Event → Level
  | descriptorWarning | recordDeferred => .warn
  | runStarted | declarationsLoaded | documentWritten | aggregateWritten | runFinished => .info
  | descriptorLoaded | annotationIgnored | registryCollected | schemaBuilt
  | documentRendered => .debug

/-- The part of the program that an event is about. -/
def source : Event → String
  | runStarted | runFinished => "mongoschema"
  | descriptorWarning | descriptorLoaded => "mongoschema_descriptor::provider"
  | declarationsLoaded | recordDeferred | schemaBuilt => "mongoschema_compile::pipeline"
  | annotationIgnored | registryCollected => "mongoschema_compile::registry"
  | documentRendered => "mongoschema_emit::emitter"
  | documentWritten | aggregateWritten => "mongoschema_emit::output"

/-- The names of what is told with an event. -/
def fields : Event → List String
  | runStarted => ["event", "descriptor", "out_dir", "strict"]
  | descriptorWarning => ["event", "code", "path", "message"]
  | descriptorLoaded => ["event", "path", "records", "enums"]
  | declarationsLoaded => ["event", "source", "records", "enums"]
  | annotationIgnored => ["event", "key", "annotation"]
  | registryCollected => ["event", "constraints", "exemptions"]
  | recordDeferred => ["event", "record", "reason"]
  | schemaBuilt => ["event", "record", "collection", "fields"]
  | documentRendered => ["event", "collection", "file", "bytes"]
  | documentWritten => ["event", "collection", "path"]
  | aggregateWritten => ["event", "entries", "path"]
  | runFinished => ["event", "schemas", "deferred", "elapsed_ms"]

end Event

end CollectionSchema
