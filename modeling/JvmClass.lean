import JvmClass.Access
import JvmClass.Annotation
import JvmClass.BufferPool
import JvmClass.Bytecode.Assertion
import JvmClass.Bytecode.Code
import JvmClass.Bytecode.Decoder
import JvmClass.Bytecode.Instruction
import JvmClass.Bytecode.Opcode
import JvmClass.Class.Attributes
import JvmClass.Class.Basic
import JvmClass.Class.Build
import JvmClass.Class.Field
import JvmClass.Class.Header
import JvmClass.Class.Member
import JvmClass.Class.Method
import JvmClass.Class.OfFile
import JvmClass.CommandLine
import JvmClass.Cursor
import JvmClass.Decimal.Notation
import JvmClass.Decimal.Shortest
import JvmClass.Descriptor.Basic
import JvmClass.Descriptor.Parser
import JvmClass.Descriptor.Valid
import JvmClass.Dump
import JvmClass.Duplicate
import JvmClass.Fault
import JvmClass.File.Attribute
import JvmClass.File.Constant
import JvmClass.File.Reader
import JvmClass.File.Record
import JvmClass.Graph.ClassGraph
import JvmClass.Graph.ClassInfo
import JvmClass.Graph.GraphType
import JvmClass.Graph.StandardClasses
import JvmClass.Graph.Subtype
import JvmClass.Host
import JvmClass.Interner
import JvmClass.Main
import JvmClass.Name
import JvmClass.Options
import JvmClass.Pool.Basic
import JvmClass.Pool.Describe
import JvmClass.Pool.Draft
import JvmClass.Pool.Entry
import JvmClass.Pool.Link
import JvmClass.Pool.Patch
import JvmClass.Pool.Resolve
import JvmClass.SetOnce
import JvmClass.Text.Graphic
import JvmClass.Text.Letter
import JvmClass.Text.ModifiedUtf8
import JvmClass.Text.Quoted
import JvmClass.Version
import JvmClass.Warning
import JvmClass.Proofs.Bytecode.Encoding
import JvmClass.Proofs.Bytecode.Decoding
import JvmClass.Proofs.Bytecode.Targets
import JvmClass.Proofs.Bytecode.Execution
import JvmClass.Proofs.Bytecode.AssertionRemoval
import JvmClass.Proofs.Bytecode.Closed
import JvmClass.Proofs.Bytecode.Question
import JvmClass.Proofs.Bytecode.CodeLayout
import JvmClass.Proofs.Bytecode.Acceptance
import JvmClass.Proofs.Bytecode.Arguments
import JvmClass.Proofs.Bytecode.DebugTables
import JvmClass.Proofs.Bytecode.Handlers
import JvmClass.Proofs.Bytecode.LastTables
import JvmClass.Proofs.Duplicate
import JvmClass.Proofs.SetOnce
import JvmClass.Proofs.Interner
import JvmClass.Proofs.BufferPool
import JvmClass.Proofs.Descriptor.Dotted
import JvmClass.Proofs.Descriptor.Spelling
import JvmClass.Proofs.Descriptor.ClassName
import JvmClass.Proofs.Descriptor.Language
import JvmClass.Proofs.Pool.Sound
import JvmClass.Proofs.Pool.Resolution
import JvmClass.Proofs.Pool.Upkeep
import JvmClass.Proofs.Pool.Locality
import JvmClass.Proofs.Pool.Addressing
import JvmClass.Proofs.Pool.Renumbering
import JvmClass.Proofs.Pool.Visiting
import JvmClass.Proofs.Pool.Preparation
import JvmClass.Proofs.Pool.Binding
import JvmClass.Proofs.Pool.Growth
import JvmClass.Proofs.Pool.Relinking
import JvmClass.Proofs.Pool.LateMarking
import JvmClass.Proofs.Pool.Leniency
import JvmClass.Proofs.Pool.Patching
import JvmClass.Proofs.Pool.Tables
import JvmClass.Proofs.Class.Building
import JvmClass.Proofs.Class.Uses
import JvmClass.Proofs.Class.Marking
import JvmClass.Proofs.Class.Provision
import JvmClass.Proofs.Class.Requirement
import JvmClass.Proofs.Class.Ensuring
import JvmClass.Proofs.Class.Usable
import JvmClass.Proofs.Class.Lasting
import JvmClass.Proofs.Class.Alike
import JvmClass.Proofs.Class.Slots
import JvmClass.Proofs.Class.AttributeOrder
import JvmClass.Proofs.Class.NewerAttributes
import JvmClass.Proofs.Class.AssertionSkipping
import JvmClass.Proofs.Class.Repetitions
import JvmClass.Proofs.Class.DebugTables
import JvmClass.Proofs.Class.Jumps
import JvmClass.Proofs.Class.Reporting
import JvmClass.Proofs.Class.Annotating
import JvmClass.Proofs.Class.Properties
import JvmClass.Proofs.Class.Origin
import JvmClass.Proofs.Class.Markers
import JvmClass.Proofs.Class.Initializers
import JvmClass.Proofs.Text.ByteGroups
import JvmClass.Proofs.Text.ModifiedUtf8
import JvmClass.Proofs.Text.Overlong
import JvmClass.Proofs.File.Pieces
import JvmClass.Proofs.File.Layout
import JvmClass.Proofs.File.Truncation
import JvmClass.Proofs.File.Payload
import JvmClass.Proofs.Trapping.Basic
import JvmClass.Proofs.Trapping.Bytes
import JvmClass.Proofs.Trapping.Text
import JvmClass.Proofs.Trapping.Bytecode
import JvmClass.Proofs.Trapping.Payload
import JvmClass.Proofs.Trapping.Pool
import JvmClass.Proofs.Trapping.Class
import JvmClass.Proofs.Graph.Reachability
import JvmClass.Proofs.Graph.SubtypeOrder
import JvmClass.Proofs.Graph.Signatures
import JvmClass.Proofs.Graph.Members
import JvmClass.Proofs.Graph.InterfaceMethods
import JvmClass.Proofs.Graph.SuperCalls
import JvmClass.Proofs.Graph.RootMethods
import JvmClass.Proofs.Graph.TypesByName
import JvmClass.Proofs.Annotation.Written
import JvmClass.Proofs.Annotation.Reading
import JvmClass.Proofs.Annotation.Stopping
