import GripAbsorption.Base.Table
import GripAbsorption.Base.Run
import GripAbsorption.Base.Python
import GripAbsorption.Base.Flow
import GripAbsorption.Base.Search
import GripAbsorption.Base.Text
import GripAbsorption.Base.Numbering
import GripAbsorption.Base.Bytes
import GripAbsorption.Base.Levels
import GripAbsorption.Base.Decimal
import GripAbsorption.Base.Lexical
import GripAbsorption.Base.Regex
import GripAbsorption.Base.Exchange
import GripAbsorption.Base.Latch
import GripAbsorption.Packetized.Device
import GripAbsorption.Packetized.Pem
import GripAbsorption.Packetized.Rule
import GripAbsorption.Packetized.Battery
import GripAbsorption.Packetized.Step
import GripAbsorption.Packetized.Run
import GripAbsorption.Packetized.Next
import GripAbsorption.Packetized.Outcome
import GripAbsorption.Packetized.Deadline
import GripAbsorption.Packetized.Packet
import GripAbsorption.Packetized.Exits
import GripAbsorption.Packetized.Admission
import GripAbsorption.Packetized.Load
import GripAbsorption.Packetized.Retention
import GripAbsorption.Packetized.Frame
import GripAbsorption.Packetized.Command
import GripAbsorption.Packetized.Idle
import GripAbsorption.Packetized.Bands
import GripAbsorption.Packetized.Colder
import GripAbsorption.Packetized.Cap
import GripAbsorption.Absorption.State
import GripAbsorption.Absorption.Management
import GripAbsorption.Absorption.Moves
import GripAbsorption.Absorption.Commit
import GripAbsorption.Absorption.Balance
import GripAbsorption.Absorption.Batteries
import GripAbsorption.Absorption.Lookup
import GripAbsorption.Absorption.Thermostat
import GripAbsorption.Absorption.Setpoint
import GripAbsorption.Absorption.Houses
import GripAbsorption.Absorption.Shed
import GripAbsorption.Absorption.Ownership
import GripAbsorption.Absorption.Records
import GripAbsorption.Absorption.Faults
import GripAbsorption.Absorption.Units
import GripAbsorption.Absorption.LoadControl
import GripAbsorption.Absorption.Request
import GripAbsorption.Absorption.Baseline
import GripAbsorption.Absorption.Imbalance
import GripAbsorption.Absorption.Shortage
import GripAbsorption.Islanding.Graph
import GripAbsorption.Islanding.Cycles
import GripAbsorption.Islanding.Draws
import GripAbsorption.Islanding.Core
import GripAbsorption.Islanding.Capacity
import GripAbsorption.Islanding.Loops
import GripAbsorption.Islanding.Server
import GripAbsorption.Islanding.Energy
import GripAbsorption.Islanding.Outage
import GripAbsorption.Islanding.Components
import GripAbsorption.Islanding.Isolation
import GripAbsorption.Islanding.Flags
import GripAbsorption.Islanding.Payload
import GripAbsorption.Islanding.Renumber
import GripAbsorption.Islanding.Fleet
import GripAbsorption.Islanding.Ratings
import GripAbsorption.Islanding.Columns
import GripAbsorption.Islanding.Reply
import GripAbsorption.Islanding.Shutoff
import GripAbsorption.Islanding.Solvable
import GripAbsorption.Islanding.Request
import GripAbsorption.Islanding.Reported
import GripAbsorption.Islanding.Switching
import GripAbsorption.Dispatch.Model
import GripAbsorption.Dispatch.Baseline
import GripAbsorption.Dispatch.Clock
import GripAbsorption.Dispatch.Row
import GripAbsorption.Dispatch.Optimum
import GripAbsorption.Dispatch.Request
import GripAbsorption.Outputs.EventLog
import GripAbsorption.Outputs.Complex
import GripAbsorption.Outputs.Timeseries
import GripAbsorption.Outputs.Voltages
import GripAbsorption.Outputs.Powers
import GripAbsorption.Link.Server
import GripAbsorption.Link.Controller
import GripAbsorption.Link.Session
import GripAbsorption.Link.Isolated
import GripAbsorption.Link.Switched
import GripAbsorption.Protection.Loads
import GripAbsorption.Protection.Commit
import GripAbsorption.Protection.Run
import GripAbsorption.Protection.Switches
